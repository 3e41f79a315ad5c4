import Archetype.Proofs.Walk.Related

/-!
Walks that keep track of where they are: which nodes are entered and not yet left, and at each node
that is entered, which ones were and what the scope tree was. A walk that keeps track ends as the
walk does, also when it fails.
-/

namespace Archetype

/-- An entered node, the nodes that were open then, the innermost first, and the scope tree that it
was entered in. -/
structure Stop where
  node : Node
  around : List Node
  tree : ScopeTree

def Stop.scope (stop : Stop) : ScopeId := stop.tree.current

structure Track where
  around : List Node := []
  stops : List Stop := []

namespace Track

def enter (track : Track) (node : Node) (tree : ScopeTree) : Track :=
  ⟨node :: track.around, track.stops ++ [⟨node, track.around, tree⟩]⟩

def leave (track : Track) : Track := { track with around := track.around.tail }

end Track

def Visit.tracked (change : ScopeTree → Track → Track) (work : Visit σ Unit) :
    Visit (σ × Track) Unit := fun (tree, s, track) =>
  (work (tree, s)).map fun (result, tree', s') => (result, tree', s', change tree track)

/-- The visitor that also keeps track. -/
def Visitor.tracking (visitor : Visitor σ) : Visitor (σ × Track) where
  enter node := (visitor.enter node).tracked fun tree track => track.enter node tree
  leave node := (visitor.leave node).tracked fun _ track => track.leave

/-- How work around a node ends that keeps track: the node is not entered, or the work inside it
fails, or the node is left. -/
inductive Visitor.Ends (visitor : Visitor σ) (node : Node) (work : Visit (σ × Track) Unit)
    (tree : ScopeTree) (s : σ) (track : Track) :
    Except RunError Unit → ScopeTree → σ → Track → Prop
  | refused (refuses : visitor.enter node (tree, s) = some (.error error, tree', s')) :
      visitor.Ends node work tree s track (.error error) tree' s' (track.enter node tree)
  | failed (entered : Visit.Gives (visitor.enter node) (tree, s) () (tree₁, s₁))
      (fails : work (tree₁, s₁, track.enter node tree) = some (.error error, tree', s', track')) :
      visitor.Ends node work tree s track (.error error) tree' s' track'
  | left (entered : Visit.Gives (visitor.enter node) (tree, s) () (tree₁, s₁))
      (works : work (tree₁, s₁, track.enter node tree) = some (.ok (), tree₂, s₂, track₂))
      (leaves : visitor.leave node (tree₂, s₂) = some (result, tree', s')) :
      visitor.Ends node work tree s track result tree' s' track₂.leave

theorem Visitor.ends_of_around {visitor : Visitor σ} {node : Node} {work : Visit (σ × Track) Unit}
    {tree tree' : ScopeTree} {s s' : σ} {track track' : Track} {result : Except RunError Unit}
    (ended : Walk.around visitor.tracking node work (tree, s, track) =
      some (result, tree', s', track')) :
    visitor.Ends node work tree s track result tree' s' track' := by
  have enter : visitor.tracking.enter node (tree, s, track) = (visitor.enter node (tree, s)).map
      fun outcome => (outcome.1, outcome.2.1, outcome.2.2, track.enter node tree) := rfl
  unfold Walk.around at ended
  rw [Visit.bind_eq, enter] at ended
  obtain ⟨_, tracked, ended⟩ := Option.bind_eq_some_iff.1 ended
  obtain ⟨⟨outcome, tree₁, s₁⟩, entered, same⟩ := Option.map_eq_some_iff.1 tracked
  cases same
  cases outcome with
  | error error =>
      cases ended
      exact .refused entered
  | ok =>
      simp only at ended
      rw [Visit.bind_eq] at ended
      obtain ⟨⟨outcome, tree₂, s₂, track₂⟩, works, ended⟩ := Option.bind_eq_some_iff.1 ended
      cases outcome with
      | error error =>
          cases ended
          exact .failed entered works
      | ok =>
          obtain ⟨_, leaves, same⟩ := Option.map_eq_some_iff.1 ended
          cases same
          exact .left entered works leaves

def Track.erase (outcome : Option (Except RunError Unit × (ScopeTree × (σ × Track)))) :
    Option (Except RunError Unit × (ScopeTree × σ)) :=
  outcome.map fun (result, tree, s, _) => (result, tree, s)

def Tracks (work : Visit σ Unit) (tracking : Visit (σ × Track) Unit) : Prop :=
  ∀ tree s track, Track.erase (tracking (tree, s, track)) = work (tree, s)

namespace Tracks

variable {work : Visit σ Unit} {tracking : Visit (σ × Track) Unit}

theorem tracked (change : ScopeTree → Track → Track) (work : Visit σ Unit) :
    Tracks work (work.tracked change) := by
  intro tree s track
  have unfolded : work.tracked change (tree, s, track) =
      (work (tree, s)).map fun outcome =>
        (outcome.1, outcome.2.1, outcome.2.2, change tree track) := rfl
  rw [unfolded, Track.erase]
  cases work (tree, s) <;> rfl

theorem bind {next : Visit σ Unit} {next' : Visit (σ × Track) Unit} (first : Tracks work tracking)
    (rest : Tracks next next') : Tracks (work >>= fun _ => next) (tracking >>= fun _ => next') := by
  intro tree s track
  rw [Visit.bind_eq, Visit.bind_eq, ← first tree s track]
  cases tracking (tree, s, track) with
  | none => rfl
  | some outcome =>
      obtain ⟨result, tree', s', track'⟩ := outcome
      cases result with
      | error error => rfl
      | ok => exact rest tree' s' track'

theorem within {name : String} {frame : FrameKind} (inner : Tracks work tracking) :
    Tracks (Visit.within name frame work) (Visit.within name frame tracking) := by
  intro tree s track
  rw [Visit.within_eq, Visit.within_eq, ← inner (tree.push name frame).2 s track]
  cases tracking ((tree.push name frame).2, s, track) <;> rfl

theorem condition (node : Node) (inner : Tracks work tracking) :
    Tracks (do if ← Walk.holds node then work) (do if ← Walk.holds node then tracking) := by
  intro tree s track
  exact Visit.condition_alike (R := fun plain tracked => Track.erase tracked = plain) node rfl
    (fun _ => rfl) rfl (inner tree s track)

theorem related (visitor : Visitor σ) : visitor.Related visitor.tracking Tracks where
  enter node := tracked _ (visitor.enter node)
  leave node := tracked _ (visitor.leave node)
  pure _ _ _ := rfl
  throw _ _ _ _ := rfl
  outOfBounds _ _ _ := rfl
  bind := bind
  within _ _ := within
  condition := condition

end Tracks

/-- A walk that ends, and whether it fails or not, has a track. -/
theorem exists_track {visitor : Visitor σ} {library : Library} {limit : Nat} {methods : Methods}
    {root : Node} {tree tree' : ScopeTree} {s s' : σ} {result : Except RunError Unit}
    (walks : walk visitor library limit methods root (tree, s) = some (result, (tree', s')))
    (track : Track) :
    ∃ track', walk visitor.tracking library limit methods root (tree, s, track) =
      some (result, (tree', s', track')) := by
  have erased := (Tracks.related visitor).walk library limit methods root tree s track
  rw [walks, Track.erase] at erased
  obtain ⟨⟨_, _, _, track'⟩, tracked, same⟩ := Option.map_eq_some_iff.1 erased
  cases same
  exact ⟨track', tracked⟩

end Archetype
