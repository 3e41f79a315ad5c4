import Archetype.Proofs.Flatten.Logged
import Archetype.Proofs.Flatten.Surveyed

/-!
What the log of a run says about the bodies: how often invocations of them are visited, which are
rebuilt, and which become methods. Only where the invocations lead matters, not the nodes around.
-/

namespace Archetype

open Stateful

namespace Encounter

def rebuilt (log : List Encounter) : List Callee :=
  (log.filter (·.treatment ≠ .called)).map (·.callee)

/-- The bodies that became methods, in order. -/
def emitted (log : List Encounter) : List Callee :=
  (log.filter (·.treatment = .emitted)).map (·.callee)

@[simp] theorem rebuilt_nil : rebuilt [] = [] := rfl

@[simp] theorem rebuilt_append (log more : List Encounter) :
    rebuilt (log ++ more) = rebuilt log ++ rebuilt more := by
  simp only [rebuilt, List.filter_append, List.map_append]

@[simp] theorem rebuilt_cons (callee : Callee) (treatment : Treatment) (log : List Encounter) :
    rebuilt (⟨callee, treatment⟩ :: log) =
      (if treatment = .called then [] else [callee]) ++ rebuilt log := by
  cases treatment <;> rfl

@[simp] theorem emitted_nil : emitted [] = [] := rfl

@[simp] theorem emitted_append (log more : List Encounter) :
    emitted (log ++ more) = emitted log ++ emitted more := by
  simp only [emitted, List.filter_append, List.map_append]

@[simp] theorem emitted_cons (callee : Callee) (treatment : Treatment) (log : List Encounter) :
    emitted (⟨callee, treatment⟩ :: log) =
      (if treatment = .emitted then [callee] else []) ++ emitted log := by
  cases treatment <;> rfl

end Encounter

namespace CallTable

def calleesOf (library : Library) (filter : Node → Bool) (table : CallTable) (callee : Callee) :
    List Callee :=
  ((table.body? callee).map (·.callees library filter)).getD []

def canonicalOf (table : CallTable) (callee : Callee) : String :=
  ((table.body? callee).map (·.canonical)).getD ""

variable {library : Library} {filter : Node → Bool} {table : CallTable} {callee : Callee}
  {body : SharedBody}

theorem calleesOf_eq (found : table.body? callee = some body) :
    table.calleesOf library filter callee = body.callees library filter := by
  rw [calleesOf, found, Option.map_some, Option.getD_some]

theorem canonicalOf_eq (found : table.body? callee = some body) :
    table.canonicalOf callee = body.canonical := by
  rw [canonicalOf, found, Option.map_some, Option.getD_some]

end CallTable

/-- What becomes of invocations, given where they lead, when some names are those of methods before
and others after. -/
inductive Itinerary (library : Library) (filter : Node → Bool) (table : CallTable) :
    List String → List Callee → List Encounter → List String → Prop
  | nil : Itinerary library filter table names [] [] names
  | inlined (found : table.body? callee = some body) (single : body.count = 1)
      (below : Itinerary library filter table names (body.callees library filter) log between)
      (rest : Itinerary library filter table between callees log' names') :
      Itinerary library filter table names (callee :: callees) (⟨callee, .inlined⟩ :: (log ++ log'))
        names'
  | emitted (found : table.body? callee = some body) (fresh : body.canonical ∉ names)
      (below : Itinerary library filter table (names ++ [body.canonical])
        (body.callees library filter) log between)
      (rest : Itinerary library filter table between callees log' names') :
      Itinerary library filter table names (callee :: callees) (⟨callee, .emitted⟩ :: (log ++ log'))
        names'
  | called (found : table.body? callee = some body) (there : body.canonical ∈ names)
      (rest : Itinerary library filter table names callees log names') :
      Itinerary library filter table names (callee :: callees) (⟨callee, .called⟩ :: log) names'

namespace Itinerary

variable {library : Library} {filter : Node → Bool} {table : CallTable}
  {names between names' : List String} {callees callees' : List Callee} {log log' : List Encounter}

theorem append (first : Itinerary library filter table names callees log between)
    (second : Itinerary library filter table between callees' log' names') :
    Itinerary library filter table names (callees ++ callees') (log ++ log') names' := by
  induction first with
  | nil => exact second
  | inlined found single below _ _ ih =>
      rw [List.cons_append, List.cons_append, List.append_assoc]
      exact .inlined found single below (ih second)
  | emitted found fresh below _ _ ih =>
      rw [List.cons_append, List.cons_append, List.append_assoc]
      exact .emitted found fresh below (ih second)
  | called found there _ ih => exact .called found there (ih second)

/-- An invocation is visited where it is, and where its body is whenever that is rebuilt. -/
theorem count_visits (itinerary : Itinerary library filter table names callees log names')
    (callee : Callee) : (log.map (·.callee)).count callee = callees.count callee +
      ((Encounter.rebuilt log).flatMap (table.calleesOf library filter)).count callee := by
  induction itinerary with
  | nil => rfl
  | inlined found _ _ _ ihBelow ih =>
      simp only [List.map_cons, List.map_append, List.count_cons, List.count_append,
        Encounter.rebuilt_cons, Encounter.rebuilt_append, List.flatMap_append, reduceCtorEq,
        if_false, List.flatMap_singleton, CallTable.calleesOf_eq found, ihBelow, ih]
      omega
  | emitted found _ _ _ ihBelow ih =>
      simp only [List.map_cons, List.map_append, List.count_cons, List.count_append,
        Encounter.rebuilt_cons, Encounter.rebuilt_append, List.flatMap_append, reduceCtorEq,
        if_false, List.flatMap_singleton, CallTable.calleesOf_eq found, ihBelow, ih]
      omega
  | called _ _ _ ih =>
      simp only [List.map_cons, List.count_cons, Encounter.rebuilt_cons, if_true, List.nil_append,
        ih]
      omega

/-- Bodies become methods in the order in which they are first called. -/
theorem names_eq (itinerary : Itinerary library filter table names callees log names') :
    names' = names ++ (Encounter.emitted log).map table.canonicalOf := by
  induction itinerary with
  | nil => exact (List.append_nil _).symm
  | inlined _ _ _ _ ihBelow ih => simp [ih, ihBelow]
  | emitted found _ _ _ ihBelow ih => simp [ih, ihBelow, CallTable.canonicalOf_eq found]
  | called _ _ _ ih => simp [ih]

theorem nodup (itinerary : Itinerary library filter table names callees log names')
    (distinct : names.Nodup) : names'.Nodup := by
  induction itinerary with
  | nil => exact distinct
  | inlined _ _ _ _ ihBelow ih => exact ih (ihBelow distinct)
  | emitted _ fresh _ _ ihBelow ih =>
      refine ih (ihBelow (List.nodup_append.2 ⟨distinct, List.nodup_singleton _, ?_⟩))
      rintro name member _ single rfl
      exact fresh (List.mem_singleton.1 single ▸ member)
  | called _ _ _ ih => exact ih distinct

theorem names_subset (itinerary : Itinerary library filter table names callees log names') :
    names ⊆ names' := by
  rw [itinerary.names_eq]
  exact List.subset_append_left _ _

/-- Every invocation led to a body of the table; the body was used once if it was inlined, and it
was a method if it was only called. -/
theorem exists_body (itinerary : Itinerary library filter table names callees log names') :
    ∀ visit ∈ log, ∃ body, table.body? visit.callee = some body ∧
      (visit.treatment = .inlined → body.count = 1) ∧
      (visit.treatment = .called → body.canonical ∈ names') := by
  have grows : ∀ {names names' : List String}, names ⊆ names' → ∀ {visit : Encounter},
      (∃ body, table.body? visit.callee = some body ∧
        (visit.treatment = .inlined → body.count = 1) ∧
        (visit.treatment = .called → body.canonical ∈ names)) →
      ∃ body, table.body? visit.callee = some body ∧
        (visit.treatment = .inlined → body.count = 1) ∧
        (visit.treatment = .called → body.canonical ∈ names') := by
    rintro names names' larger visit ⟨body, found, single, there⟩
    exact ⟨body, found, single, fun called => larger (there called)⟩
  induction itinerary with
  | nil => nofun
  | inlined found single _ rest ihBelow ih =>
      refine List.forall_mem_cons.2 ⟨⟨_, found, fun _ => single, nofun⟩, ?_⟩
      exact List.forall_mem_append.2
        ⟨fun visit member => grows rest.names_subset (ihBelow visit member), ih⟩
  | emitted found _ _ rest ihBelow ih =>
      refine List.forall_mem_cons.2 ⟨⟨_, found, nofun, nofun⟩, ?_⟩
      exact List.forall_mem_append.2
        ⟨fun visit member => grows rest.names_subset (ihBelow visit member), ih⟩
  | called found there rest ih =>
      exact List.forall_mem_cons.2 ⟨⟨_, found, nofun, fun _ => rest.names_subset there⟩, ih⟩

end Itinerary

theorem Logged.itinerary {library : Library} {table : CallTable} {filter : Node → Bool}
    {inline : Bool} {script : Script} {nodes result : List Node} {s s' : Rebuild.State}
    {log : List Encounter}
    (sourced : table.Sourced library)
    (logged : Logged table filter inline script nodes s log result s') :
    Itinerary library filter table (Rebuild.Slots.names s.methods)
      (Node.callees library filter script nodes) log (Rebuild.Slots.names s'.methods) := by
  have kept : ∀ {d : Declaration} {children : List Node} {s s' : Rebuild.State} {node : Node},
      Rebuild.build d children s = .ok (node, s') → s'.methods = s.methods :=
    fun built => (Rebuild.build_eq_ok built).2.2.2.1
  induction logged with
  | nil => exact .nil
  | rejected rejects _ ih => rwa [Node.callees_of_rejected rejects]
  | declaration _ role _ ih => rwa [Node.callees_of_declaration role]
  | never _ role constant _ ih => rwa [Node.callees_of_never role constant]
  | always accepts role constant _ _ ihBelow ih =>
      rw [Node.callees_of_condition accepts role (by simp [constant])]
      exact ihBelow.append ih
  | condition accepts role constant _ built _ ihBelow ih =>
      rw [Node.callees_of_condition accepts role (by simp [constant])]
      exact ihBelow.append (kept built ▸ ih)
  | inlined accepts reached inlines _ _ ihBelow ih =>
      rw [Node.callees_of_leads accepts (CallTable.callee?_of_reached? sourced reached)]
      have single := inlines.1
      simp only [Bool.and_eq_true, decide_eq_true_eq] at single
      exact .inlined (CallTable.body?_of_reached? reached) single.1.2 ihBelow ih
  | emitted accepts reached _ fresh _ made built _ ihBelow ih =>
      rw [Node.callees_of_leads accepts (CallTable.callee?_of_reached? sourced reached)]
      rw [kept built, Rebuild.Slots.names_fill, kept made] at ih
      rw [Rebuild.Slots.names_reserve] at ihBelow
      exact .emitted (CallTable.body?_of_reached? reached) fresh ihBelow ih
  | called accepts reached _ there built _ ih =>
      rw [Node.callees_of_leads accepts (CallTable.callee?_of_reached? sourced reached)]
      exact .called (CallTable.body?_of_reached? reached) there (kept built ▸ ih)
  | emptied accepts role _ _ _ ihBelow ih =>
      rw [Node.callees_of_block accepts role]
      exact ihBelow.append ih
  | block accepts role _ _ built _ ihBelow ih =>
      rw [Node.callees_of_block accepts role]
      exact ihBelow.append (kept built ▸ ih)

end Archetype
