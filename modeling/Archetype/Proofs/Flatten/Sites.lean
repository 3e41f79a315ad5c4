import Archetype.Proofs.Flatten.Rebuilding
import Archetype.Proofs.Flatten.Simulation
import Archetype.Proofs.Scope.Pairing
import Mathlib.Data.List.Nodup

/-!
The sites of a flattened script: every invocation that is walked, with the call that takes its
place. No invocation and no call is in two sites, so the frames of the one are renamed to those of
the other.
-/

namespace Archetype

namespace Node

theorem exists_mem_of_mem_invocations {nodes : List Node} {invocation : Node}
    (member : invocation ∈ invocations nodes) :
    ∃ node ∈ nodes, invocation ∈ invocations [node] := by
  induction nodes with
  | nil => cases member
  | cons node rest ih =>
      rw [← List.singleton_append, invocations_append] at member
      rcases List.mem_append.1 member with here | later
      · exact ⟨node, List.mem_cons_self .., here⟩
      · obtain ⟨other, inside, member⟩ := ih later
        exact ⟨other, List.mem_cons_of_mem _ inside, member⟩

theorem eq_of_invocation_id {nodes : List Node} (distinct : ((invocations nodes).map (·.id)).Nodup)
    {a b invocation invocation' : Node} (first : a ∈ nodes) (second : b ∈ nodes)
    (inside : invocation ∈ invocations [a]) (inside' : invocation' ∈ invocations [b])
    (same : invocation.id = invocation'.id) : a = b := by
  induction nodes with
  | nil => cases first
  | cons node rest ih =>
      rw [← List.singleton_append, invocations_append, List.map_append] at distinct
      obtain ⟨-, later, apart⟩ := List.nodup_append.1 distinct
      have apart : ∀ {c}, c ∈ rest → ∀ {x y}, x ∈ invocations [node] → y ∈ invocations [c] →
          x.id ≠ y.id := fun member _ _ here there =>
        apart _ (List.mem_map_of_mem here) _ (List.mem_map_of_mem
          ((invocations_sublist (List.singleton_sublist.2 member)).subset there))
      rcases List.mem_cons.1 first with rfl | firstLater
      · rcases List.mem_cons.1 second with rfl | secondLater
        · rfl
        · exact absurd same (apart secondLater inside inside')
      · rcases List.mem_cons.1 second with rfl | secondLater
        · exact absurd same.symm (apart firstLater inside' inside)
        · exact ih later firstLater secondLater

theorem exists_calledFrame (node : Node) (library : Library) :
    ∃ target, node.calledFrame library = invocationFrame target node.id := by
  unfold calledFrame
  split
  · split
    · exact ⟨_, rfl⟩
    · exact ⟨_, rfl⟩
  · exact ⟨_, rfl⟩

/-- The frame of an invocation tells its construction number. -/
theorem id_eq_of_calledFrame {library : Library} {node other : Node}
    (same : node.calledFrame library = other.calledFrame library) : node.id = other.id := by
  obtain ⟨target, framed⟩ := node.exists_calledFrame library
  obtain ⟨target', framed'⟩ := other.exists_calledFrame library
  rw [framed, framed'] at same
  exact invocationFrame_injective same

end Node

/-- The invocations of the scripts at hand have numbers of their own. -/
structure DistinctIds (scripts : List Script) : Prop where
  within : ∀ script ∈ scripts, ((Node.invocations script.root.children).map (·.id)).Nodup
  across : ∀ script ∈ scripts, ∀ other ∈ scripts,
    ∀ node ∈ Node.invocations script.root.children,
      ∀ node' ∈ Node.invocations other.root.children, node.id = node'.id → script = other

namespace Drawn

variable {scripts : List Script} {callee callee' : Callee} {script script' : Script}
  {nodes nodes' : List Node}

theorem known (drawn : Drawn scripts callee script nodes) : script ∈ scripts := by
  cases drawn <;> assumption

theorem sublist (drawn : Drawn scripts callee script nodes) :
    (Node.invocations nodes).Sublist (Node.invocations script.root.children) := by
  cases drawn with
  | script known => exact Node.invocations_sublist List.filter_sublist
  | method known declared named =>
      exact (Node.invocations_children_sublist _).trans
        (Node.invocations_sublist (List.singleton_sublist.2 (List.mem_filter.1 declared).1))

theorem nodup (drawn : Drawn scripts callee script nodes) (distinct : DistinctIds scripts) :
    ((Node.invocations nodes).map (·.id)).Nodup :=
  (distinct.within script drawn.known).sublist (drawn.sublist.map _)

theorem callee_eq (drawn : Drawn scripts callee script nodes)
    (drawn' : Drawn scripts callee' script' nodes') (distinct : DistinctIds scripts)
    {node node' : Node} (inside : node ∈ Node.invocations nodes)
    (inside' : node' ∈ Node.invocations nodes') (same : node.id = node'.id) :
    callee = callee' := by
  obtain rfl := distinct.across _ drawn.known _ drawn'.known _ (drawn.sublist.subset inside) _
    (drawn'.sublist.subset inside') same
  have within := distinct.within _ drawn.known
  have of_child := fun {method : Node} {invocation : Node}
    (member : invocation ∈ Node.invocations method.children) =>
      (Node.invocations_children_sublist method).subset member
  -- A child of the root is a method or not.
  have apart : ∀ {method invocation invocation' : Node}, method ∈ script.root.methods →
      invocation ∈ Node.invocations script.root.body →
      invocation' ∈ Node.invocations method.children → invocation.id ≠ invocation'.id := by
    intro method invocation invocation' declared here there same
    obtain ⟨child, member, here⟩ := Node.exists_mem_of_mem_invocations here
    obtain ⟨member, other⟩ := List.mem_filter.1 member
    obtain ⟨declared, kind⟩ := List.mem_filter.1 declared
    have same := Node.eq_of_invocation_id within member declared here (of_child there) same
    rw [same] at other
    simp_all
  cases drawn with
  | script known =>
      cases drawn' with
      | script known' => rfl
      | method known' declared' named' => exact absurd same (apart declared' inside inside')
  | method known declared named =>
      cases drawn' with
      | script known' => exact absurd same.symm (apart declared inside' inside)
      | method known' declared' named' =>
          have same := Node.eq_of_invocation_id within (List.mem_filter.1 declared).1
            (List.mem_filter.1 declared').1 (of_child inside) (of_child inside') same
          rw [same, named'] at named
          rw [Option.some.inj named]

end Drawn

namespace Rebuild

variable {library : Library} {scripts : List Script} {table : CallTable} {filter : Node → Bool}
  {script : Script} {names : List String} {slots : Slots}

structure SitesOf (table : CallTable) (filter : Node → Bool) (slots : Slots) (sites : Sites) :
    Prop where
  calls : sites.map Prod.snd = Node.invocations (slots.filterMap (·.2))
  distinct : (sites.map (·.1.id)).Nodup
  rebuilt : ∀ name method, (name, some method) ∈ slots → ∃ body ∈ table.bodies,
    body.canonical = name ∧
      Rebuilt table filter (fun node twin => (node, twin) ∈ sites) body.script body.nodes
        method.children
  owner : ∀ node twin, (node, twin) ∈ sites → ∃ body, table.body? body.callee = some body ∧
    body.canonical ∈ slots.names ∧ node ∈ Node.invocations body.nodes

theorem drawn_of_body? (sound : table.Sound library scripts script) {body : SharedBody}
    {callee : Callee} (found : table.body? callee = some body) :
    Drawn scripts body.callee body.script body.nodes :=
  sound.drawn body (List.mem_of_find?_eq_some found)

theorem exists_sitesOf (sound : table.Sound library scripts script)
    (ids : DistinctIds scripts) (distinct : slots.names.Nodup)
    (complete : ∀ name, (name, none) ∉ slots)
    (emitted : ∀ name method, (name, some method) ∈ slots → ∃ body,
      table.body? body.callee = some body ∧ body.canonical = name ∧
        Emitted table filter names body method) :
    ∃ sites, SitesOf table filter slots sites := by
  induction slots with
  | nil => exact ⟨[], rfl, .nil, by simp, by simp⟩
  | cons slot rest ih =>
      obtain ⟨name, slot⟩ := slot
      cases slot with
      | none => exact absurd (List.mem_cons_self ..) (complete name)
      | some method =>
          obtain ⟨fresh, distinct⟩ := List.nodup_cons.1 distinct
          obtain ⟨later, of⟩ := ih distinct
            (fun name member => complete name (List.mem_cons_of_mem _ member))
            (fun name method member => emitted name method (List.mem_cons_of_mem _ member))
          obtain ⟨body, found, named, declared, here, rebuilt, sources, calls, -⟩ :=
            emitted name method (List.mem_cons_self ..)
          have plain : method.isInvocation = false := by
            rw [Node.isInvocation, Node.kind, declared]
            rfl
          refine ⟨here ++ later, ?_, ?_, ?_, ?_⟩
          · have methods : ((name, some method) :: rest).filterMap (·.2) =
                method :: rest.filterMap (·.2) := rfl
            rw [List.map_append, calls, of.calls, methods, Node.invocations_cons, plain]
            simp
          · rw [List.map_append]
            refine List.nodup_append.2 ⟨?_, of.distinct, ?_⟩
            · have within := (drawn_of_body? sound found).nodup ids
              have sub := sources.map (·.id)
              rw [List.map_map] at sub
              exact within.sublist sub
            · rintro id member _ member' rfl
              obtain ⟨site, inside, rfl⟩ := List.mem_map.1 member
              obtain ⟨site', inside', same⟩ := List.mem_map.1 member'
              obtain ⟨other, found', there, reaches'⟩ := of.owner _ _ inside'
              have reaches := sources.subset (List.mem_map_of_mem inside)
              have callee := (drawn_of_body? sound found).callee_eq
                (drawn_of_body? sound found') ids reaches reaches' same.symm
              rw [callee, found'] at found
              rw [Option.some.inj found, named] at there
              exact fresh there
          · intro name' method' member
            rcases List.mem_cons.1 member with same | member
            · cases same
              exact ⟨body, List.mem_of_find?_eq_some found, named,
                rebuilt.mono fun _ _ inside => List.mem_append_left _ inside⟩
            · obtain ⟨body', known, named', rebuilt'⟩ := of.rebuilt _ _ member
              exact ⟨body', known, named',
                rebuilt'.mono fun _ _ inside => List.mem_append_right _ inside⟩
          · intro node twin member
            rcases List.mem_append.1 member with inside | inside
            · exact ⟨body, found, named ▸ List.mem_cons_self ..,
                sources.subset (List.mem_map_of_mem inside)⟩
            · obtain ⟨body', found', there, reaches⟩ := of.owner _ _ inside
              exact ⟨body', found', List.mem_cons_of_mem _ there, reaches⟩

def framePairs (library : Library) (sites : Sites) : List (String × String) :=
  sites.map fun site => (site.1.calledFrame library, invocationFrame site.2.target site.2.id)

/-- If no invocation and no call is in two sites, the frames can be renamed. -/
def sitePairing (library : Library) (sites : Sites) (sources : (sites.map (·.1.id)).Nodup)
    (calls : (sites.map (·.2.id)).Nodup) : Pairing where
  pairs := framePairs library sites
  marked name other member := by
    obtain ⟨site, -, same⟩ := List.mem_map.1 member
    cases same
    obtain ⟨target, framed⟩ := site.1.exists_calledFrame library
    rw [framed]
    exact ⟨marked_invocationFrame _ _, marked_invocationFrame _ _⟩
  functional name other other' member member' := by
    obtain ⟨site, inside, same⟩ := List.mem_map.1 member
    obtain ⟨site', inside', same'⟩ := List.mem_map.1 member'
    simp only [Prod.mk.injEq] at same same'
    have ids := Node.id_eq_of_calledFrame (same.1.trans same'.1.symm)
    rw [← same.2, ← same'.2, List.inj_on_of_nodup_map sources inside inside' ids]
  injective name name' other member member' := by
    obtain ⟨site, inside, same⟩ := List.mem_map.1 member
    obtain ⟨site', inside', same'⟩ := List.mem_map.1 member'
    simp only [Prod.mk.injEq] at same same'
    have ids := invocationFrame_injective (same.2.trans same'.2.symm)
    rw [← same.1, ← same'.1, List.inj_on_of_nodup_map calls inside inside' ids]

/-! Complete methods. -/

namespace Slots

theorem Sound.declared (sound : slots.Sound table filter) {name : String} {method : Node}
    (member : (name, some method) ∈ slots) :
    method.kind = .method ∧ method.name? = some name := by
  obtain ⟨body, -, rfl, declared, -⟩ := sound.emitted _ _ member
  refine ⟨by rw [Node.kind, declared], ?_⟩
  rw [Node.name?, declared]
  rfl

theorem Sound.exists_name (sound : slots.Sound table filter) {method : Node}
    (member : method ∈ slots.filterMap (·.2)) :
    method.kind = .method ∧ ∃ name, (name, some method) ∈ slots := by
  obtain ⟨⟨name, slot⟩, inside, complete⟩ := List.mem_filterMap.1 member
  simp only at complete
  subst complete
  exact ⟨(sound.declared inside).1, name, inside⟩

theorem Sound.targets (sound : slots.Sound table filter) {call : Node}
    (member : call ∈ Node.invocations (slots.filterMap (·.2))) : call.target ∈ slots.names := by
  obtain ⟨method, inside, member⟩ := Node.exists_mem_of_mem_invocations member
  obtain ⟨kind, name, inside⟩ := sound.exists_name inside
  obtain ⟨body, -, -, -, _, -, -, -, targets⟩ := sound.emitted _ _ inside
  refine targets call ?_
  have plain : method.isInvocation = false := by
    rw [Node.isInvocation, kind]
    rfl
  rw [Node.invocations_cons, plain] at member
  simpa using member

end Slots

/-- The methods of a flattened script stand for the scripts it reaches. -/
theorem exists_flat (ids : DistinctIds scripts) (known : script ∈ scripts)
    (tableSound : table.Sound library scripts script) (sound : slots.Sound table filter)
    (complete : ∀ name, (name, none) ∉ slots) {body : List Node}
    (rebuilt : RebuiltAs table filter slots.names script script.root.body body)
    {compiled : Node} (children : compiled.children = slots.filterMap (·.2) ++ body)
    (fresh : ((Node.invocations compiled.children).map (·.id)).Nodup) :
    ∃ sites ρ, Flat library scripts table filter sites ρ (Methods.declare [] compiled) ∧
      Rebuilt table filter sites script script.root.body body := by
  obtain ⟨inside, of⟩ := exists_sitesOf tableSound ids sound.distinct complete sound.emitted
  obtain ⟨here, rebuilt, sources, calls, targets⟩ := rebuilt
  have total : (inside ++ here).map Prod.snd = Node.invocations compiled.children := by
    rw [List.map_append, of.calls, calls, children, Node.invocations_append]
  have distinctCalls : ((inside ++ here).map (·.2.id)).Nodup := by
    rw [← total, List.map_map] at fresh
    exact fresh
  have own : Drawn scripts (.script script.identity) script script.root.body := .script known
  have distinctSources : ((inside ++ here).map (·.1.id)).Nodup := by
    rw [List.map_append]
    refine List.nodup_append.2 ⟨of.distinct, ?_, ?_⟩
    · have sub := sources.map (·.id)
      rw [List.map_map] at sub
      exact (own.nodup ids).sublist sub
    · rintro id member _ member' rfl
      obtain ⟨site, there, rfl⟩ := List.mem_map.1 member
      obtain ⟨site', there', same⟩ := List.mem_map.1 member'
      obtain ⟨other, found, -, reaches⟩ := of.owner _ _ there
      have reaches' := sources.subset (List.mem_map_of_mem there')
      exact tableSound.acyclic other (List.mem_of_find?_eq_some found)
        ((drawn_of_body? tableSound found).callee_eq own ids reaches reaches' same.symm)
  have methods : compiled.methods = slots.filterMap (·.2) := by
    rw [Node.methods, children, List.filter_append, List.filter_eq_self.2 fun method member => by
      simpa using (sound.exists_name member).1, List.filter_eq_nil_iff.2 fun node member => by
      simpa using rebuilt.kind_ne_method node member, List.append_nil]
  have names : (compiled.methods.filterMap (·.name?)).Nodup := by
    rw [methods, Slots.filterMap_name? complete fun _ _ member => (sound.declared member).2]
    exact sound.distinct
  refine ⟨fun node twin => (node, twin) ∈ inside ++ here,
    (sitePairing library (inside ++ here) distinctSources distinctCalls).toRenaming, ⟨?_, ?_⟩,
    rebuilt.mono fun _ _ member => List.mem_append_right _ member⟩
  · intro node twin other site member canonical
    have target : twin.target ∈ slots.names := by
      have call : twin ∈ (inside ++ here).map Prod.snd := List.mem_map_of_mem site
      rw [List.map_append, of.calls, calls] at call
      exact (List.mem_append.1 call).elim sound.targets (targets twin)
    obtain ⟨⟨name, slot⟩, there, named⟩ := List.mem_map.1 target
    obtain rfl : name = twin.target := named
    cases slot with
    | none => exact absurd there (complete _)
    | some method =>
        obtain ⟨body', member', canonical', rebuilt'⟩ := of.rebuilt _ _ there
        have same := List.inj_on_of_nodup_map tableSound.distinct member' member
          (canonical'.trans canonical.symm)
        obtain ⟨kind, named⟩ := sound.declared there
        refine ⟨method, ?_, kind, ?_⟩
        · refine Methods.lookup_foldl_of_mem names ?_ named []
          rw [methods]
          exact List.mem_filterMap.2 ⟨_, there, rfl⟩
        · exact same ▸ rebuilt'.mono fun _ _ member => List.mem_append_left _ member
  · intro node twin site
    exact Pairing.apply_of_mem _ (List.mem_map_of_mem site)

end Rebuild

end Archetype
