import Archetype.Proofs.Flatten.Discovery
import Archetype.Proofs.Flatten.Logged
import Archetype.Proofs.Script.Checking

/-!
Rebuilding puts every body that a call names among the methods, once, and flattens it in the same
way. As long as no call is lost with an input, methods come in the order in which they are first
called. Without inlining every invocation that stays is paired with the call it becomes.
-/

namespace Archetype

open Stateful

namespace Rebuild

structure MethodOf (table : CallTable) (filter : Node → Bool) (inline : Bool)
    (names : List String) (body : SharedBody) (method : Node) : Prop where
  declaration : method.declaration =
    { kind := .method, attributes := .ofList [("name", .string body.canonical)] }
  checked : method.Checked
  flattened : ∃ left, Flattened table filter inline names body.script
    (Node.allFrameNames body.nodes) body.nodes method.children left

structure Slots.Flat (table : CallTable) (filter : Node → Bool) (inline : Bool) (slots : Slots) :
    Prop where
  distinct : slots.names.Nodup
  complete : ∀ name method, (name, some method) ∈ slots → ∃ body,
    table.body? body.callee = some body ∧ body.canonical = name ∧
      MethodOf table filter inline slots.names body method

/-- What rebuilding does to the methods: none goes away, and none is left incomplete that was not
incomplete before. -/
structure Slots.Moves (table : CallTable) (filter : Node → Bool) (inline : Bool)
    (before after : Slots) : Prop where
  names : ∀ name ∈ before.names, name ∈ after.names
  pending : ∀ name, (name, none) ∈ after → (name, none) ∈ before
  flat : before.Flat table filter inline → after.Flat table filter inline

def Slots.completed (methods : List Node) : Slots :=
  methods.map fun method => (method.target, some method)

def Slots.Adds (before : Slots) (nodes : List Node) (after : Slots) : Prop :=
  ∃ methods, after = before ++ completed methods ∧ Discovers before.names nodes methods

/-- What rebuilding does from one state to another: it moves the methods and flattens the nodes. An
input that loses its options takes the calls below it away, so the methods are those that the nodes
call only if there are none. -/
structure Flattens (table : CallTable) (filter : Node → Bool) (inline : Bool) (s : State)
    (script : Script) (nodes result : List Node) (s' : State) : Prop where
  moves : Slots.Moves table filter inline s.methods s'.methods
  adds : (∀ body ∈ table.bodies, Node.strandedAll filter body.nodes = []) →
    Node.strandedAll filter nodes = [] → Slots.Adds s.methods result s'.methods
  flattened : Flattened table filter inline (Slots.names s'.methods) script s.taken nodes result
    s'.taken

variable {table : CallTable} {filter : Node → Bool} {inline : Bool}

theorem Slots.Moves.refl (slots : Slots) : slots.Moves table filter inline slots :=
  ⟨fun _ member => member, fun _ member => member, fun flat => flat⟩

theorem Slots.Moves.trans {a b c : Slots} (first : a.Moves table filter inline b)
    (second : b.Moves table filter inline c) : a.Moves table filter inline c where
  names name member := second.names name (first.names name member)
  pending name member := first.pending name (second.pending name member)
  flat flat := second.flat (first.flat flat)

namespace Slots

variable {a b c : Slots} {nodes nodes' : List Node}

theorem names_completed (methods : List Node) :
    (completed methods).names = methods.map (·.target) := by
  simp only [names, completed, List.map_map, Function.comp_def]

namespace Adds

theorem nil (slots : Slots) : slots.Adds [] slots := ⟨[], (List.append_nil _).symm, .nil⟩

theorem append (first : a.Adds nodes b) (second : b.Adds nodes' c) :
    a.Adds (nodes ++ nodes') c := by
  obtain ⟨methods, rfl, discovers⟩ := first
  obtain ⟨methods', rfl, discovers'⟩ := second
  refine ⟨methods ++ methods', by simp [completed], discovers.append ?_⟩
  rwa [names, List.map_append, ← names, ← names, names_completed] at discovers'

theorem around {node : Node} (plain : node.kind ≠ .invokeCall) (below : a.Adds node.children b) :
    a.Adds [node] b := by
  obtain ⟨methods, rfl, discovers⟩ := below
  refine ⟨methods, rfl, ?_⟩
  simpa using Discovers.other plain discovers .nil

end Adds

end Slots

namespace Flattens

variable {script : Script} {nodes result result' : List Node} {s between s' : State}

theorem idle (flattened : Flattened table filter inline (Slots.names s.methods) script s.taken
    nodes [] s.taken) : Flattens table filter inline s script nodes [] s :=
  ⟨.refl _, fun _ _ => .nil _, flattened⟩

theorem cons {node : Node} (first : Flattens table filter inline s script [node] result between)
    (rest : Flattens table filter inline between script nodes result' s') :
    Flattens table filter inline s script (node :: nodes) (result ++ result') s' where
  moves := first.moves.trans rest.moves
  adds bodies none := by
    obtain ⟨here, later⟩ := List.append_eq_nil_iff.1 none
    exact (first.adds bodies (by simpa using here)).append (rest.adds bodies later)
  flattened := (first.flattened.mono rest.moves.names).append rest.flattened

end Flattens

theorem MethodOf.mono {names more : List String} {body : SharedBody} {method : Node}
    (larger : ∀ name ∈ names, name ∈ more)
    (made : MethodOf table filter inline names body method) :
    MethodOf table filter inline more body method :=
  ⟨made.declaration, made.checked, made.flattened.imp fun _ flattened => flattened.mono larger⟩

namespace Slots

variable {slots : Slots} {name : String} {method : Node}

theorem names_reserve : (slots.reserve name).names = slots.names ++ [name] := by
  simp only [names, reserve, List.map_append, List.map_cons, List.map_nil]

theorem names_fill : (slots.fill name method).names = slots.names := by
  simp only [names, fill, List.map_map]
  refine List.map_congr_left fun slot _ => ?_
  simp only [Function.comp_apply]
  split <;> rfl

theorem mem_fill {other : String} {slot : Option Node}
    (member : (other, slot) ∈ slots.fill name method) :
    other = name ∧ slot = some method ∨ other ≠ name ∧ (other, slot) ∈ slots := by
  obtain ⟨⟨other', slot'⟩, inside, same⟩ := List.mem_map.1 member
  simp only at same
  split at same
  · next named =>
      cases same
      exact .inl ⟨named, rfl⟩
  · next unnamed =>
      cases same
      exact .inr ⟨unnamed, inside⟩

theorem fill_of_not_mem (absent : name ∉ slots.names) : slots.fill name method = slots := by
  refine (List.map_congr_left fun slot member => ?_).trans (List.map_id slots)
  simp only [id_eq, ite_eq_right_iff]
  exact fun same => absurd (List.mem_map.2 ⟨slot, member, same⟩) absent

theorem fill_reserve {methods : List Node} (fresh : name ∉ slots.names)
    (others : ∀ other ∈ methods, other.target ≠ name) (named : method.name? = some name) :
    (slots.reserve name ++ completed methods).fill name method =
      slots ++ completed (method :: methods) := by
  have absent : name ∉ (completed methods).names := by
    rw [names_completed]
    intro member
    obtain ⟨other, inside, same⟩ := List.mem_map.1 member
    exact others other inside same
  have before := @fill_of_not_mem slots name method fresh
  have after := @fill_of_not_mem (completed methods) name method absent
  unfold fill at before after ⊢
  rw [List.map_append, after, reserve, List.map_append, before, List.append_assoc]
  simp [completed, Node.target_of_name? named]

theorem filterMap_name? (complete : ∀ name, (name, none) ∉ slots)
    (named : ∀ name method, (name, some method) ∈ slots → method.name? = some name) :
    (slots.filterMap (·.2)).filterMap (·.name?) = slots.names := by
  induction slots with
  | nil => rfl
  | cons slot rest ih =>
      obtain ⟨name, slot⟩ := slot
      cases slot with
      | none => exact absurd (List.mem_cons_self ..) (complete name)
      | some method =>
          have later := ih (fun name member => complete name (List.mem_cons_of_mem _ member))
            (fun name method member => named name method (List.mem_cons_of_mem _ member))
          have methods : ((name, some method) :: rest).filterMap (·.2) =
              method :: rest.filterMap (·.2) := rfl
          rw [methods, List.filterMap_cons_some (named name method (List.mem_cons_self ..)), later]
          rfl

theorem Flat.reserve (flat : slots.Flat table filter inline) (fresh : name ∉ slots.names) :
    (slots.reserve name).Flat table filter inline where
  distinct := by
    rw [names_reserve]
    exact List.nodup_append.2 ⟨flat.distinct, List.nodup_cons.2 ⟨List.not_mem_nil, .nil⟩, by
      rintro a inside b single rfl
      exact fresh (List.mem_singleton.1 single ▸ inside)⟩
  complete other method member := by
    rcases List.mem_append.1 member with member | member
    · obtain ⟨body, known, named, made⟩ := flat.complete _ _ member
      refine ⟨body, known, named, made.mono fun name inside => ?_⟩
      rw [names_reserve]
      exact List.mem_append_left _ inside
    · simp at member

theorem Flat.fill (flat : slots.Flat table filter inline) {body : SharedBody}
    (known : table.body? body.callee = some body)
    (made : MethodOf table filter inline slots.names body method) :
    (slots.fill body.canonical method).Flat table filter inline where
  distinct := by
    rw [names_fill]
    exact flat.distinct
  complete other method' member := by
    rw [names_fill]
    rcases mem_fill member with ⟨rfl, same⟩ | ⟨-, member⟩
    · cases same
      exact ⟨body, known, rfl, made⟩
    · exact flat.complete _ _ member

end Slots

/-! A body is rebuilt while its method is reserved, which is filled with what the body becomes. -/

section Filling

variable {slots outer : Slots} {body : SharedBody} {method : Node}
  (fresh : body.canonical ∉ slots.names)
include fresh

theorem Slots.Moves.filled (known : table.body? body.callee = some body)
    (moves : (slots.reserve body.canonical).Moves table filter inline outer)
    (made : MethodOf table filter inline outer.names body method) :
    slots.Moves table filter inline (outer.fill body.canonical method) where
  names name member := by
    rw [names_fill]
    refine moves.names name ?_
    rw [names_reserve]
    exact List.mem_append_left _ member
  pending name member := by
    rcases mem_fill member with ⟨-, absent⟩ | ⟨other, member⟩
    · cases absent
    · rcases List.mem_append.1 (moves.pending name member) with member | member
      · exact member
      · cases List.mem_singleton.1 member
        exact absurd rfl other
  flat flat := (moves.flat (flat.reserve fresh)).fill known made

theorem Slots.Adds.filled (adds : (slots.reserve body.canonical).Adds method.children outer)
    (declares : method.name? = some body.canonical) {call : Node} (kind : call.kind = .invokeCall)
    (named : call.name? = some body.canonical) :
    slots.Adds [call] (outer.fill body.canonical method) := by
  obtain ⟨methods, rfl, discovers⟩ := adds
  rw [names_reserve] at discovers
  refine ⟨method :: methods, ?_, ?_⟩
  · refine fill_reserve fresh (fun other member same => ?_) declares
    exact discovers.target_not_mem other member
      (List.mem_append_right _ (List.mem_singleton.2 same))
  · simpa using Discovers.fresh kind named fresh declares discovers .nil

end Filling

theorem build_eq_ok {d : Declaration} {children : List Node} {s s' : State} {node : Node}
    (gives : build d children s = .ok (node, s')) :
    node.declaration = d ∧ node.children = children ∧
      node.declaration.check node.children = .ok node.expression ∧ s'.methods = s.methods ∧
        s'.taken = s.taken := by
  unfold build Declaration.build at gives
  cases checked : d.check children with
  | error error => simp [checked, Except.map] at gives
  | ok expression =>
      simp only [checked, Except.map, Except.ok.injEq, Prod.mk.injEq] at gives
      obtain ⟨rfl, rfl⟩ := gives
      exact ⟨rfl, rfl, checked, rfl, rfl⟩

/-! What each step of a run does. -/

namespace Flattens

variable {script : Script} {node twin : Node} {body : SharedBody} {children result : List Node}
  {s walked ready s' : State}

theorem always (accepts : filter node = true) (role : node.role = .condition)
    (constant : node.constant? = some true)
    (below : Flattens table filter inline s script node.children result s') :
    Flattens table filter inline s script [node] result s' where
  moves := below.moves
  adds bodies none := below.adds bodies
    (Node.strandedAll_children_of_condition accepts role (by simp [constant]) none)
  flattened := by simpa using Flattened.always accepts role constant below.flattened .nil

theorem condition (accepts : filter node = true) (role : node.role = .condition)
    (constant : node.constant? = none)
    (below : Flattens table filter inline s script node.children children walked)
    (built : build (foldedDeclaration node.declaration node.expression) children walked =
      .ok (twin, s')) :
    Flattens table filter inline s script [node] [twin] s' := by
  obtain ⟨declared, rfl, check, kept, same⟩ := build_eq_ok built
  obtain ⟨moves, adds, flattened⟩ := below
  rw [← kept] at moves adds flattened
  rw [← same] at flattened
  have below := Node.strandedAll_children_of_condition accepts role (by simp [constant])
  refine ⟨moves, fun bodies none => (adds bodies (below none)).around ?_,
    .condition accepts role constant declared check flattened .nil⟩
  rw [Node.kind, declared, foldedDeclaration_kind, ← Node.kind, Node.role_eq_condition role]
  exact NodeKind.noConfusion

theorem inlined (accepts : filter node = true) (reached : table.reached? script node = some body)
    (inlines : body.Inlines inline s.taken)
    (below : Flattens table filter inline
      { s with taken := Node.allFrameNames body.nodes ++ s.taken } body.script body.nodes result
        s') :
    Flattens table filter inline s script [node] result s' := by
  obtain ⟨may, apart⟩ := inlines
  simp only [Bool.and_eq_true, decide_eq_true_eq] at may
  obtain ⟨⟨inlines, single⟩, closed⟩ := may
  refine ⟨below.moves, fun bodies _ =>
    below.adds bodies (bodies body (CallTable.mem_of_reached? reached)), ?_⟩
  simpa using Flattened.inlined inlines accepts (CallTable.isInvocation_of_reached? reached) reached
    single closed apart below.flattened .nil

/-- An invocation becomes a call once the method is there. -/
theorem call (accepts : filter node = true) (reached : table.reached? script node = some body)
    (moves : Slots.Moves table filter inline s.methods ready.methods)
    (there : body.canonical ∈ Slots.names ready.methods)
    (adds : (∀ body ∈ table.bodies, Node.strandedAll filter body.nodes = []) →
      ∀ {call : Node}, call.kind = .invokeCall → call.name? = some body.canonical →
        Slots.Adds s.methods [call] ready.methods)
    (taken : ready.taken = s.taken)
    (built : build (body.call node.location) [] ready = .ok (twin, s')) :
    Flattens table filter inline s script [node] [twin] s' := by
  obtain ⟨declared, childless, check, kept, same⟩ := build_eq_ok built
  rw [← kept] at moves there adds
  refine ⟨moves, fun bodies _ => adds bodies ?_ ?_, ?_⟩
  · rw [Node.kind, declared]
  · rw [Node.name?, declared]
    rfl
  rw [same, taken]
  exact .call accepts (CallTable.isInvocation_of_reached? reached) reached declared check childless
    there .nil

theorem called (accepts : filter node = true) (reached : table.reached? script node = some body)
    (there : body.canonical ∈ Slots.names s.methods)
    (built : build (body.call node.location) [] s = .ok (twin, s')) :
    Flattens table filter inline s script [node] [twin] s' :=
  call accepts reached (.refl _) there
    (fun _ _ kind named => ⟨[], by simp [Slots.completed], .known kind named there .nil⟩) rfl built

theorem emitted {method : Node} {complete : State} (accepts : filter node = true)
    (reached : table.reached? script node = some body)
    (fresh : body.canonical ∉ Slots.names s.methods)
    (below : Flattens table filter inline
      { s with methods := Slots.reserve s.methods body.canonical,
               taken := Node.allFrameNames body.nodes } body.script body.nodes children walked)
    (made : build body.method children { walked with taken := s.taken } = .ok (method, complete))
    (built : build (body.call node.location) [] { complete with
      methods := Slots.fill complete.methods body.canonical method } = .ok (twin, s')) :
    Flattens table filter inline s script [node] [twin] s' := by
  obtain ⟨declared, rfl, checked, kept, taken⟩ := build_eq_ok made
  have kept : complete.methods = walked.methods := kept
  obtain ⟨moves, adds, flattened⟩ := below
  rw [← kept] at moves adds flattened
  have moved := moves.filled fresh (CallTable.body?_of_reached? reached)
    ⟨declared, checked, _, flattened⟩
  have declares : method.name? = some body.canonical := by
    rw [Node.name?, declared]
    rfl
  refine call accepts reached moved ?_ (fun bodies _ kind named => ?_) ?_ built
  · rw [Slots.names_fill]
    refine moves.names _ ?_
    rw [Slots.names_reserve]
    exact List.mem_append_right _ (List.mem_singleton_self _)
  · exact (adds bodies (bodies body (CallTable.mem_of_reached? reached))).filled fresh declares kind
      named
  · exact taken

theorem emptied {frame : Option (String × FrameKind)} (accepts : filter node = true)
    (role : node.role = .block frame)
    (below : Flattens table filter inline { s with taken := node.takenBelow s.taken } script
      node.children children walked)
    (optionless : (node.kind.takesOptions && !children.any (·.kind = .option)) = true) :
    Flattens table filter inline s script [node] []
      { walked with taken := node.takenAfter s.taken walked.taken } := by
  obtain ⟨takes, without⟩ := Bool.and_eq_true_iff.1 optionless
  have framed : node.kind.frame?.isSome = true := by
    cases kind : node.kind <;> simp_all [NodeKind.takesOptions, NodeKind.frame?]
  rw [Node.takenAfter, if_pos framed]
  obtain ⟨moves, adds, flattened⟩ := below
  have optionless : ∀ option ∈ node.children, option.kind = .option → filter option = false := by
    intro option member kind
    refine Bool.eq_false_iff.2 fun accepts => ?_
    obtain ⟨twin, member, same⟩ := flattened.exists_option member kind accepts
    simp only [Bool.not_eq_eq_eq_not, Bool.not_true, List.any_eq_false] at without
    have option : twin.kind = .option := (congrArg Declaration.kind same).trans kind
    exact absurd option (by simpa using without twin member)
  refine ⟨moves, fun bodies none => ?_, .emptied role takes optionless .nil⟩
  have unreached := Node.reachedAll_children_of_losesOptions accepts role ⟨takes, optionless⟩
  have uncalled := flattened.uncalled (unreached none)
  obtain ⟨methods, added, discovers⟩ :=
    adds bodies (Node.strandedAll_children_of_block accepts role none)
  obtain rfl := discovers.eq_nil_of_uncalled uncalled
  exact ⟨[], added, .nil⟩

theorem block {frame : Option (String × FrameKind)} (accepts : filter node = true)
    (role : node.role = .block frame)
    (below : Flattens table filter inline { s with taken := node.takenBelow s.taken } script
      node.children children walked)
    (built : build node.declaration children
      { walked with taken := node.takenAfter s.taken walked.taken } = .ok (twin, s')) :
    Flattens table filter inline s script [node] [twin] s' := by
  obtain ⟨declared, rfl, check, kept, same⟩ := build_eq_ok built
  have kept : s'.methods = walked.methods := kept
  obtain ⟨moves, adds, flattened⟩ := below
  rw [← kept] at moves adds flattened
  have below := Node.strandedAll_children_of_block accepts role
  refine ⟨moves, fun bodies none => (adds bodies (below none)).around ?_,
    .block accepts role declared check flattened ?_⟩
  · rw [Node.kind, declared, ← Node.kind]
    exact fun kind => by simp [Node.role_eq_call.2 kind] at role
  · rw [same]
    exact .nil

end Flattens

end Rebuild

namespace Logged

variable {table : CallTable} {filter : Node → Bool} {inline : Bool} {script : Script}
  {log : List Encounter}

theorem flattens {nodes result : List Node} {s s' : Rebuild.State}
    (logged : Logged table filter inline script nodes s log result s') :
    Rebuild.Flattens table filter inline s script nodes result s' := by
  induction logged with
  | nil => exact .idle .nil
  | rejected rejects _ ih => exact .cons (.idle (.rejected rejects .nil)) ih
  | declaration _ role _ ih => exact .cons (.idle (.declaration role .nil)) ih
  | never _ role constant _ ih => exact .cons (.idle (.never role constant .nil)) ih
  | always accepts role constant _ _ ihBelow ih =>
      exact .cons (.always accepts role constant ihBelow) ih
  | condition accepts role constant _ built _ ihBelow ih =>
      exact .cons (.condition accepts role constant ihBelow built) ih
  | inlined accepts reached inlines _ _ ihBelow ih =>
      exact .cons (.inlined accepts reached inlines ihBelow) ih
  | emitted accepts reached _ fresh _ made built _ ihBelow ih =>
      exact .cons (.emitted accepts reached fresh ihBelow made built) ih
  | called accepts reached _ there built _ ih =>
      exact .cons (.called accepts reached there built) ih
  | emptied accepts role _ optionless _ ihBelow ih =>
      exact .cons (.emptied accepts role ihBelow optionless) ih
  | block accepts role _ _ built _ ihBelow ih =>
      exact .cons (.block accepts role ihBelow built) ih

/-- When the body of a script is rebuilt, all methods are complete. Where no call is lost, they are
those that the body calls, in order. -/
theorem body_flattens {next : NodeId} {body : List Node} {s' : Rebuild.State}
    (logged : Logged table filter inline script script.root.body
      { next, taken := Node.allFrameNames script.root.body } log body s') :
    Rebuild.Slots.Flat table filter inline s'.methods ∧ (∀ name, (name, none) ∉ s'.methods) ∧
      (∃ left, Flattened table filter inline (Rebuild.Slots.names s'.methods) script
        (Node.allFrameNames script.root.body) script.root.body body left) ∧
      ((∀ body ∈ table.bodies, Node.strandedAll filter body.nodes = []) →
        Node.strandedAll filter script.root.body = [] →
          Discovers [] body (s'.methods.filterMap (·.2))) := by
  obtain ⟨moves, adds, flattened⟩ := logged.flattens
  refine ⟨?_, ?_, ⟨s'.taken, flattened⟩, fun bodies none => ?_⟩
  · exact moves.flat ⟨.nil, fun _ _ member => absurd member List.not_mem_nil⟩
  · exact fun name member => absurd (moves.pending name member) List.not_mem_nil
  · obtain ⟨methods, added, discovers⟩ := adds bodies none
    have complete : (Rebuild.Slots.completed methods).filterMap (·.2) = methods := by
      rw [Rebuild.Slots.completed, List.filterMap_map]
      exact List.filterMap_some
    rw [added, List.nil_append, complete]
    exact discovers

end Logged

namespace Rebuild

variable {table : CallTable} {filter : Node → Bool} {inline : Bool}

/-- A rebuilt script is its complete methods and its flattened body. -/
theorem script_flattens {script : Script} {next next' : NodeId} {children : List Node}
    (gives : Rebuild.script table filter inline script next = .ok (children, next')) :
    ∃ slots body, children = slots.filterMap (·.2) ++ body ∧
      Slots.Flat table filter inline slots ∧ (∀ name, (name, none) ∉ slots) ∧
      (∃ left, Flattened table filter inline (Slots.names slots) script
        (Node.allFrameNames script.root.body) script.root.body body left) ∧
      ((∀ body ∈ table.bodies, Node.strandedAll filter body.nodes = []) →
        Node.strandedAll filter script.root.body = [] →
          Discovers [] body (slots.filterMap (·.2))) := by
  obtain ⟨log, body, s', logged, rfl, -⟩ := exists_loggedScript gives
  exact ⟨s'.methods, body, rfl, logged.body_flattens⟩

/-! Without inlining every invocation that stays becomes a call. -/

/-- Nodes of a script and what they are rebuilt into. Every invocation that stays has become a call,
in order, of a method in the given list. -/
def RebuiltAs (table : CallTable) (filter : Node → Bool) (names : List String) (script : Script)
    (nodes result : List Node) : Prop :=
  ∃ sites : Sites,
    Rebuilt table filter (fun node twin => (node, twin) ∈ sites) script nodes result ∧
    (sites.map Prod.fst).Sublist (Node.invocations nodes) ∧
    sites.map Prod.snd = Node.invocations result ∧
    ∀ call ∈ Node.invocations result, call.target ∈ names

structure Emitted (table : CallTable) (filter : Node → Bool) (names : List String)
    (body : SharedBody) (method : Node) : Prop where
  declaration : method.declaration =
    { kind := .method, attributes := .ofList [("name", .string body.canonical)] }
  rebuilt : RebuiltAs table filter names body.script body.nodes method.children

structure Slots.Sound (table : CallTable) (filter : Node → Bool) (slots : Slots) : Prop where
  distinct : slots.names.Nodup
  emitted : ∀ name method, (name, some method) ∈ slots → ∃ body,
    table.body? body.callee = some body ∧ body.canonical = name ∧
      Emitted table filter slots.names body method

namespace RebuiltAs

variable {names : List String} {script : Script} {nodes nodes' result result' : List Node}

theorem nil : RebuiltAs table filter names script [] [] :=
  ⟨[], .nil, .slnil, rfl, by simp⟩

theorem cons {node : Node} (first : RebuiltAs table filter names script [node] result)
    (rest : RebuiltAs table filter names script nodes result') :
    RebuiltAs table filter names script (node :: nodes) (result ++ result') := by
  obtain ⟨sites, rebuilt, sources, calls, targets⟩ := first
  obtain ⟨sites', rebuilt', sources', calls', targets'⟩ := rest
  refine ⟨sites ++ sites', ?_, ?_, ?_, ?_⟩
  · exact (rebuilt.mono fun _ _ member => List.mem_append_left _ member).append
      (rebuilt'.mono fun _ _ member => List.mem_append_right _ member)
  · rw [List.map_append, ← List.singleton_append, Node.invocations_append]
    exact sources.append sources'
  · rw [List.map_append, Node.invocations_append, calls, calls']
  · intro call member
    rw [Node.invocations_append] at member
    exact (List.mem_append.1 member).elim (targets call) (targets' call)

theorem splice {node : Node} (plain : node.isInvocation = false)
    (step : ∀ sites, Rebuilt table filter sites script node.children result →
      Rebuilt table filter sites script [node] result)
    (below : RebuiltAs table filter names script node.children result) :
    RebuiltAs table filter names script [node] result := by
  obtain ⟨sites, rebuilt, sources, calls, targets⟩ := below
  refine ⟨sites, step _ rebuilt, ?_, calls, targets⟩
  rw [Node.invocations_cons, plain]
  simpa using sources

theorem keep {node twin : Node} (plain : node.isInvocation = false)
    (plain' : twin.isInvocation = false)
    (step : ∀ sites, Rebuilt table filter sites script node.children twin.children →
      Rebuilt table filter sites script [node] [twin])
    (below : RebuiltAs table filter names script node.children twin.children) :
    RebuiltAs table filter names script [node] [twin] := by
  obtain ⟨sites, rebuilt, sources, calls, targets⟩ := below
  have alone : Node.invocations [twin] = Node.invocations twin.children := by
    rw [Node.invocations_cons, plain']
    simp
  refine ⟨sites, step _ rebuilt, ?_, alone ▸ calls, alone ▸ targets⟩
  rw [Node.invocations_cons, plain]
  simpa using sources

theorem empty {node : Node}
    (rebuilt : ∀ sites, Rebuilt table filter sites script [node] []) :
    RebuiltAs table filter names script [node] [] :=
  ⟨[], rebuilt _, List.nil_sublist _, rfl, by simp⟩

end RebuiltAs

theorem Flattened.rebuiltAs {names : List String} {script : Script} {taken left : List String}
    {nodes result : List Node}
    (flattened : Flattened table filter false names script taken nodes result left) :
    RebuiltAs table filter names script nodes result := by
  induction flattened with
  | nil => exact .nil
  | rejected rejects _ ih => exact .cons (.empty fun _ => .rejected rejects .nil) ih
  | declaration role _ ih => exact .cons (.empty fun _ => .declaration role .nil) ih
  | never role constant _ ih => exact .cons (.empty fun _ => .never role constant .nil) ih
  | always _ role constant _ _ ihBelow ih =>
      refine .cons (ihBelow.splice (by simp [Node.isInvocation_eq, role]) fun _ rebuilt => ?_) ih
      simpa using Rebuilt.always role constant rebuilt .nil
  | @condition node _ _ _ _ _ _ twin _ role constant declaration check _ _ ihBelow ih =>
      have plain : node.isInvocation = false := by simp [Node.isInvocation_eq, role]
      have plain' : twin.isInvocation = false := by
        rw [Node.isInvocation, Node.kind, declaration, foldedDeclaration_kind]
        exact plain
      exact .cons (ihBelow.keep plain plain' fun _ rebuilt =>
        .condition role constant declaration check rebuilt .nil) ih
  | @call node _ body _ _ _ _ twin _ invokes reached declaration _ childless named _ ih =>
      suffices call : RebuiltAs table filter names _ [node] [twin] from call.cons ih
      have target : twin.target = body.canonical := by
        simp only [Node.target, Node.name?, declaration]
        rfl
      have invokes' : twin.isInvocation = true := by
        simp only [Node.isInvocation, Node.kind, declaration]
        rfl
      have alone : Node.invocations [twin] = [twin] := by
        rw [Node.invocations_cons, childless]
        simp [invokes']
      refine ⟨[(node, twin)],
        .invocation invokes reached declaration childless (List.mem_singleton_self _) .nil, ?_,
        alone.symm, ?_⟩
      · rw [Node.invocations_cons, invokes]
        simp
      · intro other member
        rw [alone] at member
        rw [List.mem_singleton.1 member, target]
        exact named
  | inlined inlines => cases inlines
  | emptied role takes optionless _ ih =>
      exact .cons (.empty fun _ => .emptied role takes optionless .nil) ih
  | @block node _ _ _ _ _ _ _ twin _ role declaration check _ _ ihBelow ih =>
      have plain : node.isInvocation = false := by simp [Node.isInvocation_eq, role]
      have plain' : twin.isInvocation = false := by
        rw [Node.isInvocation, Node.kind, declaration]
        exact plain
      exact .cons (ihBelow.keep plain plain' fun _ rebuilt =>
        .block role declaration check rebuilt .nil) ih

/-- A rebuilt script is its complete methods and its rebuilt body; every method that is called is
complete. -/
theorem script_eq_ok {script : Script} {next next' : NodeId} {children : List Node}
    (gives : Rebuild.script table filter false script next = .ok (children, next')) :
    ∃ slots body, children = slots.filterMap (·.2) ++ body ∧ Slots.Sound table filter slots ∧
      (∀ name, (name, none) ∉ slots) ∧
      RebuiltAs table filter (Slots.names slots) script script.root.body body := by
  obtain ⟨slots, body, rfl, flat, complete, ⟨_, flattened⟩, -⟩ := script_flattens gives
  refine ⟨slots, body, rfl, ⟨flat.distinct, fun name method member => ?_⟩, complete,
    Flattened.rebuiltAs flattened⟩
  obtain ⟨shared, known, named, made⟩ := flat.complete name method member
  obtain ⟨_, flattened⟩ := made.flattened
  exact ⟨shared, known, named, made.declaration, Flattened.rebuiltAs flattened⟩

end Rebuild

end Archetype
