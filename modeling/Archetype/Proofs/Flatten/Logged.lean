import Archetype.Proofs.Flatten.Flattened
import Archetype.Proofs.Stateful

/-!
Rebuilding with a log: which invocations it visits, in order, and what becomes of each. Every
successful run has one, and all that is said of successful runs is said of their logs.
-/

namespace Archetype

open Stateful

namespace Rebuild

/-- The methods so far by name; a method is there before its body is. -/
abbrev Slots := List (String × Option Node)

def Slots.names (slots : Slots) : List String := slots.map (·.1)

/-! A method is first put among the methods without its body, and its body is filled in later. -/

def Slots.reserve (slots : Slots) (name : String) : Slots := slots ++ [(name, none)]

def Slots.fill (slots : Slots) (name : String) (method : Node) : Slots :=
  slots.map fun (other, slot) => if other = name then (other, some method) else (other, slot)

namespace Slots

variable {slots : Slots} {name : String}

theorem not_mem_names (absent : (slots.lookup name).isSome = false) : name ∉ slots.names := by
  intro member
  obtain ⟨slot, inside, rfl⟩ := List.mem_map.1 member
  have missing : slots.lookup slot.1 = none := by simpa using absent
  have unequal := List.lookup_eq_none_iff.1 missing _ inside
  simp at unequal

theorem mem_names (present : (slots.lookup name).isSome = true) : name ∈ slots.names := by
  obtain ⟨slot, found⟩ := Option.isSome_iff_exists.1 present
  obtain ⟨before, after, rfl, -⟩ := List.lookup_eq_some_iff.1 found
  simp [names]

end Slots

end Rebuild

namespace SharedBody

abbrev method (body : SharedBody) : Declaration :=
  { kind := .method, attributes := .ofList [("name", .string body.canonical)] }

abbrev call (body : SharedBody) (location : Option Location) : Declaration :=
  { kind := .invokeCall, attributes := .ofList [("name", .string body.canonical)], location }

def Inlines (inline : Bool) (taken : List String) (body : SharedBody) : Prop :=
  (inline && body.count = 1 && body.isInlinable) = true ∧
    ∀ name ∈ Node.allFrameNames body.nodes, name ∉ taken

end SharedBody

/-- What becomes of an invocation: its body takes its place, or a call does. Before the first call
of a body its method is made. -/
inductive Treatment where
  | inlined
  | emitted
  | called
  deriving DecidableEq

structure Encounter where
  callee : Callee
  treatment : Treatment
  deriving DecidableEq

/-- A run on nodes of a script, from one state to another. The visits inside a body come after that
of the invocation. -/
inductive Logged (table : CallTable) (filter : Node → Bool) (inline : Bool) :
    Script → List Node → Rebuild.State → List Encounter → List Node → Rebuild.State → Prop
  | nil : Logged table filter inline script [] s [] [] s
  | rejected (rejects : filter node = false)
      (rest : Logged table filter inline script nodes s log result s') :
      Logged table filter inline script (node :: nodes) s log result s'
  | declaration (accepts : filter node = true) (role : node.role = .declaration)
      (rest : Logged table filter inline script nodes s log result s') :
      Logged table filter inline script (node :: nodes) s log result s'
  | never (accepts : filter node = true) (role : node.role = .condition)
      (constant : node.constant? = some false)
      (rest : Logged table filter inline script nodes s log result s') :
      Logged table filter inline script (node :: nodes) s log result s'
  | always (accepts : filter node = true) (role : node.role = .condition)
      (constant : node.constant? = some true)
      (below : Logged table filter inline script node.children s log spliced between)
      (rest : Logged table filter inline script nodes between log' result s') :
      Logged table filter inline script (node :: nodes) s (log ++ log') (spliced ++ result) s'
  | condition (accepts : filter node = true) (role : node.role = .condition)
      (constant : node.constant? = none)
      (below : Logged table filter inline script node.children s log children walked)
      (built : Rebuild.build (Rebuild.foldedDeclaration node.declaration node.expression) children
        walked = .ok (twin, between))
      (rest : Logged table filter inline script nodes between log' result s') :
      Logged table filter inline script (node :: nodes) s (log ++ log') (twin :: result) s'
  | inlined (accepts : filter node = true) (reached : table.reached? script node = some body)
      (inlines : body.Inlines inline s.taken)
      (below : Logged table filter inline body.script body.nodes
        { s with taken := Node.allFrameNames body.nodes ++ s.taken } log spliced between)
      (rest : Logged table filter inline script nodes between log' result s') :
      Logged table filter inline script (node :: nodes) s
        (⟨body.callee, .inlined⟩ :: (log ++ log')) (spliced ++ result) s'
  | emitted (accepts : filter node = true) (reached : table.reached? script node = some body)
      (stays : ¬body.Inlines inline s.taken)
      (fresh : body.canonical ∉ Rebuild.Slots.names s.methods)
      (below : Logged table filter inline body.script body.nodes
        { s with methods := Rebuild.Slots.reserve s.methods body.canonical,
                 taken := Node.allFrameNames body.nodes } log children walked)
      (made : Rebuild.build body.method children { walked with taken := s.taken } =
        .ok (method, complete))
      (built : Rebuild.build (body.call node.location) [] { complete with
        methods := Rebuild.Slots.fill complete.methods body.canonical method } =
          .ok (twin, between))
      (rest : Logged table filter inline script nodes between log' result s') :
      Logged table filter inline script (node :: nodes) s
        (⟨body.callee, .emitted⟩ :: (log ++ log')) (twin :: result) s'
  | called (accepts : filter node = true) (reached : table.reached? script node = some body)
      (stays : ¬body.Inlines inline s.taken)
      (there : body.canonical ∈ Rebuild.Slots.names s.methods)
      (built : Rebuild.build (body.call node.location) [] s = .ok (twin, between))
      (rest : Logged table filter inline script nodes between log result s') :
      Logged table filter inline script (node :: nodes) s (⟨body.callee, .called⟩ :: log)
        (twin :: result) s'
  | emptied (accepts : filter node = true) (role : node.role = .block frame)
      (below : Logged table filter inline script node.children
        { s with taken := node.takenBelow s.taken } log children walked)
      (optionless : (node.kind.takesOptions && !children.any (·.kind = .option)) = true)
      (rest : Logged table filter inline script nodes
        { walked with taken := node.takenAfter s.taken walked.taken } log' result s') :
      Logged table filter inline script (node :: nodes) s (log ++ log') result s'
  | block (accepts : filter node = true) (role : node.role = .block frame)
      (below : Logged table filter inline script node.children
        { s with taken := node.takenBelow s.taken } log children walked)
      (offers : (node.kind.takesOptions && !children.any (·.kind = .option)) = false)
      (built : Rebuild.build node.declaration children
        { walked with taken := node.takenAfter s.taken walked.taken } = .ok (twin, between))
      (rest : Logged table filter inline script nodes between log' result s') :
      Logged table filter inline script (node :: nodes) s (log ++ log') (twin :: result) s'

variable {table : CallTable} {filter : Node → Bool} {inline : Bool}

theorem Logged.cons {script : Script} {node : Node} {nodes result result' : List Node}
    {s between s' : Rebuild.State} {log log' : List Encounter}
    (first : Logged table filter inline script [node] s log result between)
    (rest : Logged table filter inline script nodes between log' result' s') :
    Logged table filter inline script (node :: nodes) s (log ++ log') (result ++ result') s' := by
  cases first with
  | rejected rejects none =>
      cases none
      exact .rejected rejects rest
  | declaration accepts role none =>
      cases none
      exact .declaration accepts role rest
  | never accepts role constant none =>
      cases none
      exact .never accepts role constant rest
  | always accepts role constant below none =>
      cases none
      simpa using Logged.always accepts role constant below rest
  | condition accepts role constant below built none =>
      cases none
      simpa using Logged.condition accepts role constant below built rest
  | inlined accepts reached inlines below none =>
      cases none
      simpa using Logged.inlined accepts reached inlines below rest
  | emitted accepts reached stays fresh below made built none =>
      cases none
      simpa using Logged.emitted accepts reached stays fresh below made built rest
  | called accepts reached stays there built none =>
      cases none
      exact .called accepts reached stays there built rest
  | emptied accepts role below optionless none =>
      cases none
      simpa using Logged.emptied accepts role below optionless rest
  | block accepts role below offers built none =>
      cases none
      simpa using Logged.block accepts role below offers built rest

namespace Rebuild

/-! Every run has a log. -/

def Logs (table : CallTable) (filter : Node → Bool) (inline : Bool)
    (rebuildNodes : Script → List Node → Rebuild (List Node)) : Prop :=
  ∀ {script nodes s result s'}, rebuildNodes script nodes s = .ok (result, s') →
    ∃ log, Logged table filter inline script nodes s log result s'

theorem inScope_eq_ok_iff {nodes result : List Node} {work : Rebuild (List Node)} {s s' : State} :
    inScope nodes work s = .ok (result, s') ↔
      ∃ outer, work { s with taken := Node.allFrameNames nodes } = .ok (result, outer) ∧
        s' = { outer with taken := s.taken } := by
  unfold inScope
  rw [bind_eq_ok]
  constructor
  · rintro ⟨before, here, got, gives⟩
    obtain ⟨rfl, rfl⟩ := get_eq_ok.1 got
    simp only [bind_eq_ok] at gives
    obtain ⟨_, inner, opened, rebuilt, outer, worked, _, closed, shut, gives⟩ := gives
    obtain rfl := modify_eq_ok.1 opened
    obtain rfl := modify_eq_ok.1 shut
    obtain ⟨rfl, rfl⟩ := pure_eq_ok.1 gives
    exact ⟨outer, worked, rfl⟩
  · rintro ⟨outer, worked, rfl⟩
    refine ⟨s, s, rfl, ?_⟩
    simp only [bind_eq_ok]
    exact ⟨⟨⟩, _, rfl, result, outer, worked, ⟨⟩, _, rfl, rfl⟩

theorem reserve_eq_ok {names : List String} {s s' : State} {free : Bool}
    (gives : reserve names s = .ok (free, s')) :
    free = true ∧ (∀ name ∈ names, name ∉ s.taken) ∧ s' = { s with taken := names ++ s.taken } ∨
      free = false ∧ (∃ name ∈ names, name ∈ s.taken) ∧ s' = s := by
  unfold reserve at gives
  rw [bind_eq_ok] at gives
  obtain ⟨_, here, got, gives⟩ := gives
  obtain ⟨rfl, rfl⟩ := get_eq_ok.1 got
  split at gives
  · next taken =>
      obtain ⟨name, member, there⟩ := List.any_eq_true.1 taken
      obtain ⟨rfl, rfl⟩ := pure_eq_ok.1 gives
      exact .inr ⟨rfl, ⟨name, member, of_decide_eq_true there⟩, rfl⟩
  · next free =>
      rw [bind_eq_ok] at gives
      obtain ⟨_, put, reserved, gives⟩ := gives
      obtain rfl := set_eq_ok.1 reserved
      obtain ⟨rfl, rfl⟩ := pure_eq_ok.1 gives
      exact .inl ⟨rfl, by simpa using free, rfl⟩

variable {rebuildNodes : Script → List Node → Rebuild (List Node)}

theorem node_eq (script : Script) (node : Node) :
    Rebuild.node table filter inline rebuildNodes script node =
      if filter node then
        match node.role with
        | .declaration => pure []
        | .condition =>
            match node.constant? with
            | some true => nodes table filter inline rebuildNodes script node.children
            | some false => pure []
            | none => do
                let children ← nodes table filter inline rebuildNodes script node.children
                return [← build (foldedDeclaration node.declaration node.expression) children]
        | .source =>
            match table.identity? node.origin with
            | none => throw (.unresolvedInvocation node.origin script.identity)
            | some identity =>
                invoke table inline rebuildNodes node.location node.origin script
                  (.script identity)
        | .call =>
            invoke table inline rebuildNodes node.location node.target script
              (.method script.identity node.target)
        | .block _ =>
            (if node.kind.frame?.isSome then
              inScope node.children (nodes table filter inline rebuildNodes script node.children)
            else nodes table filter inline rebuildNodes script node.children) >>= fun rebuilt =>
              if node.kind.takesOptions && !rebuilt.any (·.kind = .option) then pure []
              else build node.declaration rebuilt >>= fun twin => pure [twin]
      else pure [] := by
  obtain ⟨id, d, e, children⟩ := node
  unfold Rebuild.node Node.role
  simp only [Node.kind, Node.name?, Node.target]
  cases d.kind <;> simp only [NodeKind.frame?] <;> cases d.name? <;> rfl

theorem exists_log_call (logs : Logs table filter inline rebuildNodes) {script : Script}
    {node : Node} {body : SharedBody} (accepts : filter node = true)
    (reached : table.reached? script node = some body) {s s' : State} {result : List Node}
    (stays : ¬body.Inlines inline s.taken)
    (gives : (emit rebuildNodes body >>= fun _ =>
      build { kind := .invokeCall, attributes := .ofList [("name", .string body.canonical)],
              location := node.location } [] >>= fun call => pure [call] : Rebuild (List Node)) s =
      .ok (result, s')) :
    ∃ log, Logged table filter inline script [node] s log result s' := by
  simp only [bind_eq_ok] at gives
  obtain ⟨_, ready, emit, call, built, build, gives⟩ := gives
  obtain ⟨rfl, rfl⟩ := pure_eq_ok.1 gives
  rw [Rebuild.emit, bind_eq_ok] at emit
  obtain ⟨_, before, got, emit⟩ := emit
  obtain ⟨rfl, rfl⟩ := get_eq_ok.1 got
  cases there : (List.lookup body.canonical before.methods).isSome with
  | true =>
      simp only [there, if_true] at emit
      obtain ⟨-, rfl⟩ := pure_eq_ok.1 emit
      exact ⟨_, .called accepts reached stays (Slots.mem_names there) build .nil⟩
  | false =>
      simp only [there, Bool.false_eq_true, if_false, bind_eq_ok] at emit
      obtain ⟨_, reserved, put, children, walked, rebuilt, method, complete, made, filled⟩ := emit
      obtain rfl := modify_eq_ok.1 put
      obtain rfl := modify_eq_ok.1 filled
      obtain ⟨outer, inside, rfl⟩ := inScope_eq_ok_iff.1 rebuilt
      obtain ⟨log, logged⟩ := logs inside
      exact ⟨_, .emitted accepts reached stays (Slots.not_mem_names there) logged made build .nil⟩

theorem exists_log_invoke (logs : Logs table filter inline rebuildNodes) {script : Script}
    {node : Node} {callee : Callee} {target : String} (accepts : filter node = true)
    (reached : table.reached? script node = table.body? callee)
    {s s' : State} {result : List Node}
    (gives : invoke table inline rebuildNodes node.location target script callee s =
      .ok (result, s')) :
    ∃ log, Logged table filter inline script [node] s log result s' := by
  unfold invoke at gives
  cases found : table.body? callee with
  | none =>
      simp only [found] at gives
      exact absurd gives throw_ne_ok
  | some body =>
      have reached := reached.trans found
      simp only [found] at gives
      split at gives
      · next may =>
          rw [bind_eq_ok] at gives
          obtain ⟨inlined, between, claim, gives⟩ := gives
          obtain ⟨rfl, apart, rfl⟩ | ⟨rfl, ⟨name, member, taken⟩, rfl⟩ := reserve_eq_ok claim
          · obtain ⟨log, logged⟩ := logs gives
            exact ⟨_, by simpa using Logged.inlined accepts reached ⟨may, apart⟩ logged .nil⟩
          · exact exists_log_call logs accepts reached
              (fun inlines => inlines.2 name member taken) gives
      · next never =>
          exact exists_log_call logs accepts reached (fun inlines => never inlines.1) gives

theorem exists_log_condition {script : Script} {node : Node} (accepts : filter node = true)
    (role : node.role = .condition)
    (below : ∀ {result s s'},
      nodes table filter inline rebuildNodes script node.children s = .ok (result, s') →
        ∃ log, Logged table filter inline script node.children s log result s')
    {s s' : State} {result : List Node}
    (gives : (match node.constant? with
      | some true => nodes table filter inline rebuildNodes script node.children
      | some false => pure []
      | none => do
          let children ← nodes table filter inline rebuildNodes script node.children
          return [← build (foldedDeclaration node.declaration node.expression) children] :
        Rebuild (List Node)) s = .ok (result, s')) :
    ∃ log, Logged table filter inline script [node] s log result s' := by
  cases constant : node.constant? with
  | some truth =>
      simp only [constant] at gives
      cases truth with
      | true =>
          obtain ⟨log, logged⟩ := below gives
          exact ⟨_, by simpa using Logged.always accepts role constant logged .nil⟩
      | false =>
          obtain ⟨rfl, rfl⟩ := pure_eq_ok.1 gives
          exact ⟨_, .never accepts role constant .nil⟩
  | none =>
      simp only [constant, bind_eq_ok] at gives
      obtain ⟨children, between, walked, twin, built, build, gives⟩ := gives
      obtain ⟨rfl, rfl⟩ := pure_eq_ok.1 gives
      obtain ⟨log, logged⟩ := below walked
      exact ⟨_, .condition accepts role constant logged build .nil⟩

theorem exists_log_block {script : Script} {node : Node} {frame : Option (String × FrameKind)}
    (accepts : filter node = true) (role : node.role = .block frame)
    (below : ∀ {result s s'},
      nodes table filter inline rebuildNodes script node.children s = .ok (result, s') →
        ∃ log, Logged table filter inline script node.children s log result s')
    {s s' : State} {result : List Node}
    (gives : ((if node.kind.frame?.isSome then
        inScope node.children (nodes table filter inline rebuildNodes script node.children)
      else nodes table filter inline rebuildNodes script node.children) >>= fun rebuilt =>
        if node.kind.takesOptions && !rebuilt.any (·.kind = .option) then pure []
        else build node.declaration rebuilt >>= fun twin => pure [twin]) s = .ok (result, s')) :
    ∃ log, Logged table filter inline script [node] s log result s' := by
  rw [bind_eq_ok] at gives
  obtain ⟨children, between, walked, gives⟩ := gives
  obtain ⟨log, inner, logged, rfl⟩ : ∃ log inner, Logged table filter inline script node.children
      { s with taken := node.takenBelow s.taken } log children inner ∧
      between = { inner with taken := node.takenAfter s.taken inner.taken } := by
    unfold Node.takenBelow Node.takenAfter
    split at walked
    · next framed =>
        obtain ⟨outer, inside, rfl⟩ := inScope_eq_ok_iff.1 walked
        obtain ⟨log, logged⟩ := below inside
        simp only [framed, if_true]
        exact ⟨log, outer, logged, rfl⟩
    · next unframed =>
        obtain ⟨log, logged⟩ := below walked
        simp only [unframed]
        exact ⟨log, between, logged, rfl⟩
  cases optionless : node.kind.takesOptions && !children.any (·.kind = .option) with
  | true =>
      simp only [optionless, if_true] at gives
      obtain ⟨rfl, rfl⟩ := pure_eq_ok.1 gives
      exact ⟨_, .emptied accepts role logged optionless .nil⟩
  | false =>
      simp only [optionless, Bool.false_eq_true, if_false, bind_eq_ok] at gives
      obtain ⟨twin, built, build, gives⟩ := gives
      obtain ⟨rfl, rfl⟩ := pure_eq_ok.1 gives
      exact ⟨_, .block accepts role logged optionless build .nil⟩

theorem exists_log_nodes (logs : Logs table filter inline rebuildNodes) (script : Script) :
    ∀ (list : List Node) {result : List Node} {s s' : State},
      nodes table filter inline rebuildNodes script list s = .ok (result, s') →
        ∃ log, Logged table filter inline script list s log result s'
  | [], result, s, s', gives => by
      obtain ⟨rfl, rfl⟩ := pure_eq_ok.1 gives
      exact ⟨[], .nil⟩
  | ⟨id, d, e, children⟩ :: rest, result, s, s', gives => by
      rw [nodes] at gives
      simp only [bind_eq_ok] at gives
      obtain ⟨here, between, first, more, last, later, gives⟩ := gives
      obtain ⟨rfl, rfl⟩ := pure_eq_ok.1 gives
      have below : ∀ {result s s'},
          nodes table filter inline rebuildNodes script children s = .ok (result, s') →
            ∃ log, Logged table filter inline script children s log result s' :=
        exists_log_nodes logs script children
      obtain ⟨log', rest⟩ := exists_log_nodes logs script rest later
      generalize hnode : (⟨id, d, e, children⟩ : Node) = node at first ⊢
      rw [← show node.children = children from hnode ▸ rfl] at below
      suffices single : ∃ log, Logged table filter inline script [node] s log here between by
        obtain ⟨log, logged⟩ := single
        exact ⟨_, logged.cons rest⟩
      rw [node_eq] at first
      split at first
      · next accepts =>
          cases role : node.role with
          | declaration =>
              simp only [role] at first
              obtain ⟨rfl, rfl⟩ := pure_eq_ok.1 first
              exact ⟨_, .declaration accepts role .nil⟩
          | condition =>
              simp only [role] at first
              exact exists_log_condition accepts role below first
          | source =>
              simp only [role] at first
              cases sourced : table.identity? node.origin with
              | none =>
                  simp only [sourced] at first
                  exact absurd first throw_ne_ok
              | some identity =>
                  simp only [sourced] at first
                  exact exists_log_invoke logs accepts
                    (by simp [CallTable.reached?, role, sourced]) first
          | call =>
              simp only [role] at first
              exact exists_log_invoke logs accepts (by simp [CallTable.reached?, role]) first
          | block frame =>
              simp only [role] at first
              exact exists_log_block accepts role below first
      · next rejects =>
          obtain ⟨rfl, rfl⟩ := pure_eq_ok.1 first
          exact ⟨_, .rejected (by simpa using rejects) .nil⟩
termination_by list => sizeOf list

theorem logs_rebuildNodes (limit : Nat) :
    Logs table filter inline (Rebuild.rebuildNodes table filter inline limit) := by
  induction limit with
  | zero => exact fun gives => absurd gives throw_ne_ok
  | succ limit ih => exact fun gives => exists_log_nodes ih _ _ gives

end Rebuild

def LoggedScript (table : CallTable) (filter : Node → Bool) (inline : Bool) (script : Script)
    (next : NodeId) (log : List Encounter) (children : List Node) (next' : NodeId) : Prop :=
  ∃ body s', Logged table filter inline script script.root.body
      { next, taken := Node.allFrameNames script.root.body } log body s' ∧
    children = s'.methods.filterMap (·.2) ++ body ∧ next' = s'.next

theorem Rebuild.exists_loggedScript {script : Script} {next next' : NodeId} {children : List Node}
    (gives : Rebuild.script table filter inline script next = .ok (children, next')) :
    ∃ log, LoggedScript table filter inline script next log children next' := by
  unfold Rebuild.script at gives
  cases outcome : inScope script.root.body (rebuildNodes table filter inline
      (table.bodies.length + 1) script script.root.body) { next } with
  | error error =>
      rw [StateT.run, outcome] at gives
      cases gives
  | ok pair =>
      obtain ⟨body, s'⟩ := pair
      rw [StateT.run, outcome] at gives
      cases gives
      obtain ⟨outer, walked, rfl⟩ := inScope_eq_ok_iff.1 outcome
      obtain ⟨log, logged⟩ := logs_rebuildNodes _ walked
      exact ⟨log, body, outer, logged, rfl, rfl⟩

end Archetype
