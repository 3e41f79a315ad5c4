import Archetype.Proofs.Flatten.Reached
import Archetype.Proofs.Flatten.Rebuilding

/-!
The errors that rebuilding may end in, whatever it starts from: those of building nodes, those of
invocations that lead to no body, and the bound on bodies inside bodies. With room for all bodies
that a script comes to, the bound is never hit.
-/

namespace Archetype

open Stateful

def CallTable.Steps (table : CallTable) (filter : Node → Bool) (caller callee : Callee) : Prop :=
  ∃ body ∈ table.bodies, body.callee = caller ∧
    ∃ node ∈ Node.reachedAll filter body.nodes, ∃ next,
      table.reached? body.script node = some next ∧ next.callee = callee

def CallTable.Answers (table : CallTable) (filter : Node → Bool) (may : CompileError → Prop)
    (script : Script) (nodes : List Node) : Prop :=
  ∀ node ∈ Node.reachedAll filter nodes, table.reached? script node = none →
    ∀ target, may (.unresolvedInvocation target script.identity)

namespace Rebuild

/-- Work that never fails but for errors that may be. -/
def Straight (may : CompileError → Prop) (work : Rebuild α) : Prop :=
  ∀ s, Ensures work s (fun _ _ => True) may

variable {may : CompileError → Prop}

theorem straight_pure (value : α) : Straight may (pure value) := fun _ => ensures_pure trivial

theorem straight_throw {error : CompileError} (holds : may error) :
    Straight may (throw error : Rebuild α) := fun _ => ensures_throw holds

theorem straight_modify (f : State → State) : Straight may (modify f) :=
  fun _ => ensures_modify trivial

theorem straight_bind {work : Rebuild α} {next : α → Rebuild β} (first : Straight may work)
    (rest : ∀ value, Straight may (next value)) : Straight may (work >>= next) :=
  fun s => ensures_bind (first s) fun value s' _ => rest value s'

theorem straight_get_bind {next : State → Rebuild α} (rest : ∀ s, Straight may (next s)) :
    Straight may (get >>= next) :=
  fun s => ensures_get_bind (rest s s)

theorem straight_inScope {nodes : List Node} {work : Rebuild (List Node)}
    (inner : Straight may work) : Straight may (inScope nodes work) := by
  unfold inScope
  exact straight_get_bind fun _ => straight_bind (straight_modify _) fun _ =>
    straight_bind inner fun _ => straight_bind (straight_modify _) fun _ => straight_pure _

theorem straight_reserve (names : List String) : Straight may (reserve names) := by
  unfold reserve
  refine straight_get_bind fun s => ?_
  split
  · exact straight_pure _
  · exact fun _ => ensures_set_bind (ensures_pure trivial)

section Building

variable (builds : ∀ error, may (.construction error))
include builds

theorem straight_build (d : Declaration) (children : List Node) :
    Straight may (build d children) := by
  intro s
  unfold Ensures build
  cases d.build children s.next with
  | ok pair => exact trivial
  | error error => exact builds error

variable {rebuildNodes : Script → List Node → Rebuild (List Node)} {table : CallTable}
  {filter : Node → Bool} {inline : Bool} {script : Script}

theorem straight_emit {body : SharedBody}
    (inner : Straight may (rebuildNodes body.script body.nodes)) :
    Straight may (emit rebuildNodes body) := by
  unfold emit
  refine straight_get_bind fun s => ?_
  split
  · exact straight_pure _
  · exact straight_bind (straight_modify _) fun _ => straight_bind (straight_inScope inner)
      fun _ => straight_bind (straight_build builds _ _) fun _ => straight_modify _

theorem straight_invoke {location : Option Location} {target : String} {callee : Callee}
    (missing : table.body? callee = none → may (.unresolvedInvocation target script.identity))
    (inner : ∀ body, table.body? callee = some body →
      Straight may (rebuildNodes body.script body.nodes)) :
    Straight may (invoke table inline rebuildNodes location target script callee) := by
  unfold invoke
  cases found : table.body? callee with
  | none => exact straight_throw (missing found)
  | some body =>
      have call : Straight may (emit rebuildNodes body >>= fun _ =>
          build { kind := .invokeCall, attributes := .ofList [("name", .string body.canonical)],
                  location } [] >>= fun call => pure [call] : Rebuild (List Node)) :=
        straight_bind (straight_emit builds (inner body found)) fun _ =>
          straight_bind (straight_build builds _ _) fun _ => straight_pure _
      simp only
      split
      · refine straight_bind (straight_reserve _) fun inlined => ?_
        split
        · exact inner body found
        · exact call
      · exact call

/-- Rebuilding nodes goes into the bodies that their invocations lead to. -/
theorem straight_nodes : ∀ list : List Node, table.Answers filter may script list →
    (∀ node ∈ Node.reachedAll filter list, ∀ body, table.reached? script node = some body →
      Straight may (rebuildNodes body.script body.nodes)) →
      Straight may (nodes table filter inline rebuildNodes script list)
  | [], _, _ => straight_pure _
  | ⟨id, d, e, children⟩ :: rest, answers, inner => by
      have below : table.Answers filter may script children →
          (∀ node ∈ Node.reachedAll filter children, ∀ body,
            table.reached? script node = some body →
              Straight may (rebuildNodes body.script body.nodes)) →
          Straight may (nodes table filter inline rebuildNodes script children) :=
        straight_nodes children
      have later := straight_nodes rest
      generalize hnode : (⟨id, d, e, children⟩ : Node) = node at answers inner ⊢
      rw [← show node.children = children from hnode ▸ rfl] at below
      unfold CallTable.Answers at answers below later
      simp only [Node.reachedAll_cons, List.forall_mem_append] at answers inner
      refine straight_bind ?_ fun _ => straight_bind (later answers.2 inner.2) fun _ =>
        straight_pure _
      have answers := answers.1
      have inner := inner.1
      rw [Node.reached_eq] at answers inner
      rw [node_eq]
      split at answers
      · next accepts =>
          simp only [accepts, if_true] at inner ⊢
          cases role : node.role with
          | declaration => exact straight_pure _
          | condition =>
              simp only [role] at answers inner ⊢
              cases constant : node.constant? with
              | some truth =>
                  cases truth with
                  | true =>
                      simp only [constant] at answers inner ⊢
                      exact below (by simpa using answers) (by simpa using inner)
                  | false => exact straight_pure _
              | none =>
                  simp only [constant] at answers inner ⊢
                  exact straight_bind (below (by simpa using answers) (by simpa using inner))
                    fun _ => straight_bind (straight_build builds _ _) fun _ => straight_pure _
          | source =>
              simp only [role, List.forall_mem_singleton] at answers inner ⊢
              simp only [CallTable.reached?, role] at answers inner
              cases known : table.identity? node.origin with
              | none => exact straight_throw (answers (by rw [known]; rfl) _)
              | some identity =>
                  simp only [known, Option.bind_some] at answers inner ⊢
                  exact straight_invoke builds (fun none => answers none _) inner
          | call =>
              simp only [role, List.forall_mem_singleton] at answers inner ⊢
              simp only [CallTable.reached?, role] at answers inner
              exact straight_invoke builds (fun none => answers none _) inner
          | block frame =>
              simp only [role] at answers inner ⊢
              have below := below answers inner
              refine straight_bind ?_ fun rebuilt => ?_
              · split
                · exact straight_inScope below
                · exact below
              · split
                · exact straight_pure _
                · exact straight_bind (straight_build builds _ _) fun _ => straight_pure _
      · next rejects =>
          simp only [rejects]
          exact straight_pure _
termination_by list => sizeOf list

/-- With room for all bodies that are left, rebuilding never runs out of it. -/
theorem straight_rebuildNodes
    (bodies : ∀ body ∈ table.bodies, table.Answers filter may body.script body.nodes)
    (limit : Nat) : ∀ (callees : List Callee) (script : Script) (list : List Node),
      Settled (table.Steps filter) callees → callees.length < limit →
      table.Answers filter may script list →
      (∀ node ∈ Node.reachedAll filter list, ∀ body, table.reached? script node = some body →
        body.callee ∈ callees) →
      Straight may (Rebuild.rebuildNodes table filter inline limit script list) := by
  induction limit with
  | zero => exact fun _ _ _ _ room => absurd room (Nat.not_lt_zero _)
  | succ limit ih =>
      intro callees script list settled room answers within
      refine straight_nodes builds list answers fun node member body reached => ?_
      have inside := within node member body reached
      have known := CallTable.mem_of_reached? reached
      cases settled with
      | nil => cases inside
      | cons later settled =>
          refine ih _ _ _ settled (Nat.lt_of_succ_lt_succ room) (bodies body known) ?_
          intro call below next reached
          exact (Settled.cons later settled).mem_rest inside
            ⟨body, known, rfl, call, below, next, reached, rfl⟩

theorem may_of_script {callees : List Callee} {next : NodeId} {error : CompileError}
    (bodies : ∀ body ∈ table.bodies, table.Answers filter may body.script body.nodes)
    (settled : Settled (table.Steps filter) callees)
    (room : callees.length ≤ table.bodies.length)
    (answers : table.Answers filter may script script.root.body)
    (within : ∀ node ∈ Node.reachedAll filter script.root.body, ∀ body,
      table.reached? script node = some body → body.callee ∈ callees)
    (fails : Rebuild.script table filter inline script next = .error error) : may error := by
  have straight : Straight may (inScope script.root.body (Rebuild.rebuildNodes table filter inline
      (table.bodies.length + 1) script script.root.body)) :=
    straight_inScope (straight_rebuildNodes builds bodies _ callees script _ settled
      (Nat.lt_succ_of_le room) answers within)
  unfold Rebuild.script at fails
  cases outcome : (inScope script.root.body (Rebuild.rebuildNodes table filter inline
      (table.bodies.length + 1) script script.root.body)).run { next } with
  | ok pair => simp [outcome, bind, Except.bind, pure, Except.pure] at fails
  | error fault =>
      simp only [outcome, bind, Except.bind, Except.error.injEq] at fails
      subst fails
      exact (straight { next }).of_error outcome

end Building

end Rebuild

end Archetype
