import Archetype.Generation.Inputs
import Archetype.Input.Interactive
import Archetype.Proofs.Text.Trimming

/-!
Inputs resolved by asking. An answer is either accepted, and then stands for something that the
request allows, or it is rejected and the request is put again; a dialogue ends with the first
answer that is accepted, or where the prompter fails.
-/

namespace Archetype

namespace InputRequest

variable {request : InputRequest}

/-- What an input may be resolved to: a value of its type that is valid, the default that it has,
or nothing if it has none and is optional. -/
def Allows (request : InputRequest) : Resolution → Prop
  | .value v => request.kind.inputType? = some v.type ∧ request.validate v = .ok ()
  | .useDefault => request.default ≠ none
  | .skip => request.default = none ∧ request.optional = true
  | .unresolved => False

/-! Accepted answers. -/

theorem hasOption_of_getElem? {i : Nat} {option : InputOption}
    (there : request.options[i]? = some option) : request.hasOption option.value = true :=
  List.any_eq_true.2 ⟨option, List.mem_of_getElem? there, decide_eq_true rfl⟩

theorem hasOption_of_select {answer : List Char} {s : String}
    (selects : request.select answer = .ok s) : request.hasOption s = true := by
  unfold select at selects
  split at selects
  · next declared =>
      cases selects
      exact declared
  · split at selects
    · split at selects
      · next there =>
          cases selects
          exact hasOption_of_getElem? there
      · cases selects
    · cases selects

theorem hasOption_of_mapM_select {answers : List (List Char)} {chosen : List String}
    (selects : answers.mapM request.select = .ok chosen) :
    ∀ s ∈ chosen, request.hasOption s = true := by
  induction answers generalizing chosen with
  | nil =>
      cases selects
      exact List.forall_mem_nil _
  | cons answer rest ih =>
      rw [List.mapM_cons] at selects
      cases first : request.select answer with
      | error fault =>
          rw [first] at selects
          cases selects
      | ok s =>
          cases later : rest.mapM request.select with
          | error fault =>
              rw [first, later] at selects
              cases selects
          | ok others =>
              rw [first, later] at selects
              cases selects
              exact List.forall_mem_cons.2 ⟨hasOption_of_select first, ih later⟩

theorem validate_of_hasOption {value : Value}
    (declared : ∀ s ∈ request.chosen value, request.hasOption s = true) :
    request.validate value = .ok () := by
  have none : (request.chosen value).find? (fun s => !request.hasOption s) = none :=
    List.find?_eq_none.2 fun s member => by simp [declared s member]
  rw [validate, none]

theorem allows_unattended (settled : request.unattended ≠ .unresolved) :
    request.Allows request.unattended := by
  unfold unattended at settled ⊢
  split
  · next given => exact Option.isSome_iff_ne_none.1 given
  · next missing =>
      split
      · next optional => exact ⟨by simpa using missing, optional⟩
      · next required => simp [missing, required] at settled

theorem readAnswer_nil_of_settled (settled : request.unattended ≠ .unresolved) :
    request.readAnswer [] = .ok request.unattended := by
  rw [readAnswer, if_pos rfl]
  split
  · next unsettled => exact absurd unsettled settled
  · rfl

theorem readAnswer_nil_of_unsettled (unsettled : request.unattended = .unresolved) :
    request.readAnswer [] = .error .valueRequired := by
  rw [readAnswer, if_pos rfl, unsettled]

/-- An answer to a request for an input is only accepted for something that the request allows. -/
theorem allows_of_readAnswer (input : request.kind.isInput = true) {answer : List Char}
    {resolution : Resolution} (reads : request.readAnswer answer = .ok resolution) :
    request.Allows resolution := by
  by_cases blank : answer = []
  · subst blank
    by_cases unsettled : request.unattended = .unresolved
    · rw [readAnswer_nil_of_unsettled unsettled] at reads
      cases reads
    · rw [readAnswer_nil_of_settled unsettled] at reads
      cases reads
      exact allows_unattended unsettled
  · rw [readAnswer, if_neg blank] at reads
    cases kind : request.kind <;>
      simp only [kind, NodeKind.isInput, Bool.false_eq_true] at input <;>
      simp only [kind] at reads
    case inputText =>
      cases reads
      exact ⟨by rw [kind]; rfl, validate_of_hasOption (by simp [chosen, kind])⟩
    case inputBoolean =>
      split at reads
      · cases reads
        exact ⟨by rw [kind]; rfl, rfl⟩
      · cases reads
    case inputEnum =>
      cases selects : request.select answer with
      | error fault => rw [selects] at reads; cases reads
      | ok s =>
          rw [selects] at reads
          cases reads
          refine ⟨by rw [kind]; rfl, validate_of_hasOption ?_⟩
          simpa [chosen, kind] using hasOption_of_select selects
    case inputList =>
      cases selects : request.selectAll answer with
      | error fault => rw [selects] at reads; cases reads
      | ok items =>
          rw [selects] at reads
          cases reads
          refine ⟨by rw [kind]; rfl, validate_of_hasOption ?_⟩
          simpa [chosen, kind] using hasOption_of_mapM_select selects

end InputRequest

/-! Dialogues. -/

namespace Prompter

structure Turn where
  answer : String
  fault : InvalidAnswer

variable {π : Type}

/-- The prompter is asked, gives the answer and is told that it is not accepted. -/
def Rejects (prompter : Prompter π) (request : InputRequest) (s : π) (turn : Turn) (s' : π) :
    Prop :=
  request.readAnswer (Text.trimmed turn.answer.toList) = .error turn.fault ∧
    ∃ between, prompter.ask request s = some (.ok turn.answer, between) ∧
      prompter.reject request turn.fault between = some (.ok (), s')

inductive RejectsAll (prompter : Prompter π) (request : InputRequest) : π → List Turn → π → Prop
  | done {s : π} : RejectsAll prompter request s [] s
  | next {s between s' : π} {turn : Turn} {turns : List Turn}
      (here : prompter.Rejects request s turn between)
      (later : RejectsAll prompter request between turns s') :
      RejectsAll prompter request s (turn :: turns) s'

/-- How a dialogue ends: with an answer that is accepted, or with an error of the prompter, when it
is asked or when it is told that its answer is not accepted. -/
inductive Concludes (prompter : Prompter π) (request : InputRequest) :
    π → Except RunError Resolution → π → Prop
  | accepted {s s' : π} {answer : String} {resolution : Resolution}
      (asked : prompter.ask request s = some (.ok answer, s'))
      (reads : request.readAnswer (Text.trimmed answer.toList) = .ok resolution) :
      Concludes prompter request s (.ok resolution) s'
  | unanswered {s s' : π} {error : RunError}
      (asked : prompter.ask request s = some (.error error, s')) :
      Concludes prompter request s (.error error) s'
  | untold {s between s' : π} {answer : String} {fault : InvalidAnswer} {error : RunError}
      (asked : prompter.ask request s = some (.ok answer, between))
      (reads : request.readAnswer (Text.trimmed answer.toList) = .error fault)
      (told : prompter.reject request fault between = some (.error error, s')) :
      Concludes prompter request s (.error error) s'

variable {prompter : Prompter π} {request : InputRequest} {attempts : Nat} {s s' between : π}
  {outcome : Except RunError Resolution} {answer : String}

/-! One turn. -/

theorem resolve_of_reads {resolution : Resolution}
    (asked : prompter.ask request s = some (.ok answer, between))
    (reads : request.readAnswer (Text.trimmed answer.toList) = .ok resolution) :
    prompter.resolve request (attempts + 1) s = some (.ok resolution, between) := by
  rw [resolve, Bounded.bind_eq, asked, Option.bind_some]
  simp only [reads]
  rfl

theorem resolve_of_fault {fault : InvalidAnswer}
    (asked : prompter.ask request s = some (.ok answer, between))
    (reads : request.readAnswer (Text.trimmed answer.toList) = .error fault) :
    prompter.resolve request (attempts + 1) s =
      (prompter.reject request fault >>= fun _ => prompter.resolve request attempts) between := by
  rw [resolve, Bounded.bind_eq, asked, Option.bind_some]
  simp only [reads]

theorem Rejects.resolve_eq {turn : Turn} (rejects : prompter.Rejects request s turn between) :
    prompter.resolve request (attempts + 1) s = prompter.resolve request attempts between := by
  obtain ⟨reads, shown, asked, told⟩ := rejects
  rw [resolve_of_fault asked reads, Bounded.bind_eq, told, Option.bind_some]

theorem Concludes.resolve_eq (concludes : prompter.Concludes request s outcome s') :
    prompter.resolve request (attempts + 1) s = some (outcome, s') := by
  cases concludes with
  | accepted asked reads => exact resolve_of_reads asked reads
  | unanswered asked => rw [resolve, Bounded.bind_eq, asked, Option.bind_some]
  | untold asked reads told =>
      rw [resolve_of_fault asked reads, Bounded.bind_eq, told, Option.bind_some]

/-- A dialogue that comes to an end ends now, or an answer is rejected first. -/
theorem concludes_or_rejects
    (resolves : prompter.resolve request (attempts + 1) s = some (outcome, s')) :
    prompter.Concludes request s outcome s' ∨
      ∃ turn between, prompter.Rejects request s turn between ∧
        prompter.resolve request attempts between = some (outcome, s') := by
  cases asked : prompter.ask request s with
  | none =>
      rw [resolve, Bounded.bind_eq, asked] at resolves
      cases resolves
  | some shown =>
      obtain ⟨error | answer, between⟩ := shown
      · rw [(Concludes.unanswered asked).resolve_eq] at resolves
        cases resolves
        exact .inl (.unanswered asked)
      · cases reads : request.readAnswer (Text.trimmed answer.toList) with
        | ok resolution =>
            rw [resolve_of_reads asked reads] at resolves
            cases resolves
            exact .inl (.accepted asked reads)
        | error fault =>
            cases told : prompter.reject request fault between with
            | none =>
                rw [resolve_of_fault asked reads, Bounded.bind_eq, told] at resolves
                cases resolves
            | some after =>
                obtain ⟨error | _, after⟩ := after
                · rw [(Concludes.untold asked reads told).resolve_eq] at resolves
                  cases resolves
                  exact .inl (.untold asked reads told)
                · have rejects : prompter.Rejects request s ⟨answer, fault⟩ after :=
                    ⟨reads, between, asked, told⟩
                  rw [rejects.resolve_eq] at resolves
                  exact .inr ⟨_, after, rejects, resolves⟩

/-! The whole dialogue. -/

/-- A dialogue comes to an end within a number of questions exactly if fewer answers than that are
rejected before it ends. -/
theorem resolve_eq_some_iff :
    prompter.resolve request attempts s = some (outcome, s') ↔
      ∃ turns between, turns.length < attempts ∧ prompter.RejectsAll request s turns between ∧
        prompter.Concludes request between outcome s' := by
  constructor
  · intro resolves
    induction attempts generalizing s with
    | zero => cases resolves
    | succ attempts ih =>
        rcases concludes_or_rejects resolves with concludes | ⟨turn, after, rejects, resolves⟩
        · exact ⟨[], s, Nat.succ_pos _, .done, concludes⟩
        · obtain ⟨turns, last, fewer, rejected, concludes⟩ := ih resolves
          exact ⟨turn :: turns, last, Nat.succ_lt_succ fewer, .next rejects rejected, concludes⟩
  · rintro ⟨turns, last, fewer, rejected, concludes⟩
    induction rejected generalizing attempts with
    | done =>
        obtain ⟨attempts, rfl⟩ := Nat.exists_eq_succ_of_ne_zero (Nat.pos_iff_ne_zero.1 fewer)
        exact concludes.resolve_eq
    | next rejects _ ih =>
        cases attempts with
        | zero => cases fewer
        | succ attempts =>
            rw [rejects.resolve_eq]
            exact ih (Nat.lt_of_succ_lt_succ fewer) concludes

theorem allows_of_resolve (input : request.kind.isInput = true) {resolution : Resolution}
    (resolves : prompter.resolve request attempts s = some (.ok resolution, s')) :
    request.Allows resolution := by
  obtain ⟨_, _, _, _, concludes⟩ := resolve_eq_some_iff.1 resolves
  cases concludes with
  | accepted _ reads => exact InputRequest.allows_of_readAnswer input reads

/-- A blank answer is taken as no answer, and asked for again if there has to be one. -/
theorem resolve_of_blank (asked : prompter.ask request s = some (.ok answer, between))
    (blank : ∀ c ∈ answer.toList, Text.isBlank c = true) :
    prompter.resolve request (attempts + 1) s =
      if request.unattended = .unresolved then
        (prompter.reject request .valueRequired >>= fun _ =>
          prompter.resolve request attempts) between
      else some (.ok request.unattended, between) := by
  have nothing := Text.trimmed_eq_nil_iff.2 blank
  split
  · next unsettled =>
      exact resolve_of_fault asked (nothing ▸ InputRequest.readAnswer_nil_of_unsettled unsettled)
  · next settled =>
      exact resolve_of_reads asked (nothing ▸ InputRequest.readAnswer_nil_of_settled settled)

end Prompter

/-- However a prompter answers, an input that is asked for is resolved to nothing that the request
does not allow. A number of questions is enough exactly if fewer answers are rejected, each for its
own fault and one after the other, before one is accepted or the prompter itself fails. A blank
answer gives what an unattended run gives, and is rejected where that would leave the input
unresolved. -/
theorem interactive_resolves_to_allowed {π : Type} (prompter : Prompter π) (node : Node)
    (path : String) (default : Option Value) (input : node.kind.isInput = true) (scope : ScopeTree)
    (attempts : Nat) (s : π) :
    let request := InputRequest.ofNode node path default
    (∀ outcome s', Resolver.interactive prompter attempts request scope s = some (outcome, s') ↔
        ∃ turns between, turns.length < attempts ∧ prompter.RejectsAll request s turns between ∧
          prompter.Concludes request between outcome s') ∧
      (∀ resolution s', Resolver.interactive prompter attempts request scope s =
          some (.ok resolution, s') → request.Allows resolution) ∧
      ∀ answer between, prompter.ask request s = some (.ok answer, between) →
        (∀ c ∈ answer.toList, Text.isBlank c = true) →
          (Resolver.batch request scope between ≠ some (.ok .unresolved, between) →
            Resolver.interactive prompter (attempts + 1) request scope s =
              Resolver.batch request scope between) ∧
          (Resolver.batch request scope between = some (.ok .unresolved, between) →
            Resolver.interactive prompter (attempts + 1) request scope s =
              (prompter.reject request .valueRequired >>= fun _ =>
                Resolver.interactive prompter attempts request scope) between) := by
  intro request
  have unattended : ∀ between : π,
      Resolver.batch request scope between = some (.ok request.unattended, between) := fun _ => rfl
  refine ⟨fun _ _ => Prompter.resolve_eq_some_iff, fun _ _ => Prompter.allows_of_resolve input,
    fun answer between asked blank => ⟨fun settled => ?_, fun unsettled => ?_⟩⟩
  · rw [unattended] at settled ⊢
    exact (Prompter.resolve_of_blank asked blank).trans (if_neg fun same => settled (by rw [same]))
  · rw [unattended] at unsettled
    have same : request.unattended = .unresolved := by simpa using unsettled
    exact (Prompter.resolve_of_blank asked blank).trans (if_pos same)

/-! A choice among two options that is answered at the third attempt. -/

structure PreparedAnswers where
  answers : List String
  faults : List InvalidAnswer
  deriving DecidableEq

def preparedPrompter : Prompter PreparedAnswers where
  ask _ := fun prepared =>
    match prepared.answers with
    | [] => some (.error (.prompt "no more answers"), prepared)
    | answer :: rest => some (.ok answer, { prepared with answers := rest })
  reject _ fault := fun prepared =>
    some (.ok (), { prepared with faults := prepared.faults ++ [fault] })

def featureOption (value : String) : Node where
  id := ⟨1⟩
  declaration := { kind := .option, attributes := .ofList [("value", .string value)] }
  expression := none
  children := []

def featuresInput : Node where
  id := ⟨2⟩
  declaration := { kind := .inputList, attributes := .ofList [("name", .string "features")] }
  expression := none
  children := [featureOption "web", featureOption "db"]

theorem features_allowed_at_third_attempt :
    let request := InputRequest.ofNode featuresInput "features" none
    let prepared : PreparedAnswers := ⟨["\t", "db, 3", " 2 ,, web"], []⟩
    featuresInput.kind.isInput = true ∧
      Resolver.interactive preparedPrompter 3 request {} prepared =
        (preparedPrompter.reject request .valueRequired >>= fun _ =>
          Resolver.interactive preparedPrompter 2 request {}) ⟨["db, 3", " 2 ,, web"], []⟩ ∧
      Resolver.interactive preparedPrompter 3 request {} prepared =
        some (.ok (.value (.list ["db", "web"])), ⟨[], [.valueRequired, .unknownOption "3"]⟩) ∧
      request.Allows (.value (.list ["db", "web"])) := by
  intro request prepared
  have input : featuresInput.kind.isInput = true := rfl
  have resolves : Resolver.interactive preparedPrompter 3 request {} prepared =
      some (.ok (.value (.list ["db", "web"])), ⟨[], [.valueRequired, .unknownOption "3"]⟩) := by
    decide +kernel
  obtain ⟨-, -, blank⟩ := interactive_resolves_to_allowed preparedPrompter featuresInput "features"
    none input {} 2 prepared
  obtain ⟨-, allowed, -⟩ := interactive_resolves_to_allowed preparedPrompter featuresInput
    "features" none input {} 3 prepared
  exact ⟨input, (blank "\t" _ rfl (List.all_eq_true.1 (by decide))).2 (by decide +kernel), resolves,
    allowed _ _ resolves⟩

end Archetype
