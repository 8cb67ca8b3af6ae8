import Gazette.Broker.Replica
import Gazette.Broker.Stream

/-! Where each append is, as its own fields show it: for every state of `appendFSM` and every
point of `run`, what the FSM holds (the pipeline's send side, the resolution and the checks
made on it, `rollToOffset`, the client's stream). These facts hold of every append in every
reachable state, for every interleaving, and the later modules build on them. -/

namespace Gazette.Broker

/-- The append holds the pipeline's send side. -/
def Holding (b : AppendFSM) : Prop := b.plnReturnCh = true ∧ b.pln ≠ none

def PreStream (b : AppendFSM) : Prop := b.clientCommit = false ∧ b.clientFragment = none

def ResolvedPrimary (b : AppendFSM) : Prop :=
  ∃ r, b.resolved = some r ∧ r.status = .ok ∧ r.isPrimary = true

/-- The resolution passed every check on the way to stateValidateOffset. -/
def Checked (b : AppendFSM) : Prop :=
  ∃ r, b.resolved = some r ∧ r.status = .ok ∧ r.isPrimary = true ∧
    journalRouteMatchesAssignments r.header.route r.assignments = true ∧
    (r.header.route.members.length : Int) = r.journalSpec.desiredReplication

/-- What the `onValidateOffset` that admitted the append into stateStreamContent observed. -/
def Admitted (ρ : Run) : Prop :=
  ∃ r se eo, ρ.fsm.resolved = some r ∧ ρ.validated = some (se, eo) ∧
    (r.journalSpec.flags.mayWrite = true → eo ≤ se) ∧
    (ρ.fsm.req.offset ≠ 0 → se = ρ.fsm.req.offset ∧ eo ≤ se)

/-- What an append running handlers in state `st` holds. -/
def ShapeAt : AppendState → Run → Prop
  | .resolve, ρ => ρ.fsm.rollToOffset = 0 ∧ PreStream ρ.fsm
  | .acquirePipeline, ρ => ρ.fsm.plnReturnCh = false ∧ ρ.fsm.rollToOffset = 0 ∧
      PreStream ρ.fsm ∧ ResolvedPrimary ρ.fsm
  | .startPipeline, ρ => ρ.fsm.plnReturnCh = true ∧ ρ.fsm.rollToOffset = 0 ∧
      PreStream ρ.fsm ∧ ResolvedPrimary ρ.fsm
  | .sendPipelineSync, ρ => Holding ρ.fsm ∧ PreStream ρ.fsm ∧ ResolvedPrimary ρ.fsm
  | .recvPipelineSync, ρ => Holding ρ.fsm ∧ PreStream ρ.fsm ∧ ResolvedPrimary ρ.fsm
  | .updateAssignments, ρ => Holding ρ.fsm ∧ ρ.fsm.rollToOffset = 0 ∧ PreStream ρ.fsm ∧
      ResolvedPrimary ρ.fsm
  | .awaitDesiredReplicas, ρ => ρ.fsm.rollToOffset = 0 ∧ PreStream ρ.fsm ∧
      ∃ r, ρ.fsm.resolved = some r ∧ r.status = .ok ∧
        (r.isPrimary = true → Holding ρ.fsm ∧
          journalRouteMatchesAssignments r.header.route r.assignments = true)
  | .validateOffset, ρ => Holding ρ.fsm ∧ ρ.fsm.rollToOffset = 0 ∧ PreStream ρ.fsm ∧
      Checked ρ.fsm
  | .streamContent, ρ => Holding ρ.fsm ∧ ρ.fsm.rollToOffset = 0 ∧ Checked ρ.fsm ∧ Admitted ρ ∧
      ρ.fsm.err = none ∧ (ρ.fsm.clientFragment = none → ρ.fsm.clientCommit = false)
  | .readAcknowledgements, ρ => Holding ρ.fsm ∧ ρ.fsm.rollToOffset = 0 ∧ ρ.fsm.resolved ≠ none
  | .error, _ => True
  | .proxy, ρ => ρ.fsm.rollToOffset = 0
  | .finished, ρ => ρ.fsm.rollToOffset = 0

def Releasing (b : AppendFSM) : Prop :=
  b.state = .readAcknowledgements ∧ b.plnReturnCh = false ∧ b.pln ≠ none ∧ b.resolved ≠ none ∧
    b.rollToOffset = 0

/-- What an append holds at each point of its `run`. -/
def Shape (ρ : Run) : Prop :=
  match ρ.pc with
  | .running => ShapeAt ρ.fsm.state ρ
  | .awaitBarrier k k' _ => k' = k + 1 ∧ Releasing ρ.fsm
  | .gathering _ _ => Releasing ρ.fsm
  | .returned => ρ.fsm.plnReturnCh = false ∧ (ρ.fsm.state ≠ .error → ρ.fsm.rollToOffset = 0)

theorem Shape.running {ρ : Run} (hpc : ρ.pc = .running) : Shape ρ ↔ ShapeAt ρ.fsm.state ρ := by
  simp [Shape, hpc]

theorem Shape.running_of_holding {ρ : Run} (hs : Shape ρ) (h : ρ.fsm.plnReturnCh = true) :
    ρ.pc = .running := by
  unfold Shape Releasing at hs
  split at hs <;> simp_all

theorem Shape.of_running {ρ ρ' : Run} (hpc : ρ.pc = .running) (hpc' : ρ'.pc = ρ.pc)
    (h : ShapeAt ρ'.fsm.state ρ') : Shape ρ' := by
  rwa [Shape.running (hpc'.trans hpc)]

theorem shape_init (req : AppendRequest) : Shape (Run.init req) :=
  ⟨rfl, rfl, rfl⟩

theorem ShapeAt.sawChunk {st : AppendState} {ρ : Run} (h : ShapeAt st ρ) (c : Bool) :
    ShapeAt st { ρ with sawChunk := c } := by
  cases st <;> exact h

variable {σ : Type} {C : Collaborators σ}

theorem ShapeAt.onStreamContent {i : Nat} {d : Except Error AppendRequest}
    {failure : Option Error} {ρ : Run} {b : AppendFSM} {pl pl' : Pipeline σ}
    (hst : ρ.fsm.state = .streamContent) (hs : ShapeAt .streamContent ρ)
    (h : onStreamContent C i d failure ρ.fsm pl = some (b, pl')) :
    ShapeAt b.state { ρ with fsm := b } := by
  obtain ⟨hhold, hroll, hchk, hadm, herr, -⟩ := hs
  obtain ⟨r, hr, hok, -⟩ := id hchk
  obtain ⟨b', pl'', heq, hcase⟩ := onStreamContent_cases C i d failure pl hr hok
  simp only [h, Option.some.injEq, Prod.mk.injEq] at heq
  obtain ⟨rfl, rfl⟩ := heq
  rcases hcase with ⟨-, -, -, -, -, ⟨⟨cc, cf, sm, rfl⟩, -⟩, hcf, -⟩ |
    ⟨-, -, -, ⟨⟨cc, cf, sm, rfl⟩, -⟩, hcf, -⟩ | ⟨⟨rs, cc, cf, sm, e, rfl⟩, hres, -⟩
  · show ShapeAt ρ.fsm.state _
    rw [hst]
    exact ⟨hhold, hroll, hchk, hadm, herr, fun h => absurd h hcf⟩
  · show ShapeAt ρ.fsm.state _
    rw [hst]
    exact ⟨hhold, hroll, hchk, hadm, herr, fun h => absurd h hcf⟩
  · exact ⟨hhold, hroll, hres⟩

theorem RunStep.shape {i : Nat} {ρ ρ' : Run} {w w' : Replica σ} (h : RunStep C i ρ w ρ' w')
    (hs : Shape ρ) : Shape ρ' := by
  cases h with
  | resolve _ hpc hst h =>
    obtain ⟨hroll, hpre⟩ : ShapeAt .resolve ρ := hst ▸ (Shape.running hpc).mp hs
    refine Shape.of_running hpc rfl ?_
    rcases onResolve_cases h with
      ⟨-, ⟨e, rfl⟩ | ⟨r, -, rfl⟩ | ⟨r, hok, hp, hch, rfl⟩ | ⟨r, hok, hp, hch, rfl⟩⟩ |
      ⟨r, hok, hp, rfl, -⟩
    · trivial
    · trivial
    · exact ⟨hch, hroll, hpre, r, rfl, hok, hp⟩
    · exact ⟨hch, hroll, hpre, r, rfl, hok, hp⟩
    · exact ⟨hroll, hpre, r, rfl, hok, fun h => absurd h (by simp [hp])⟩
  | acquirePipeline _ hpc hst h =>
    obtain ⟨-, hroll, hpre, hres⟩ : ShapeAt .acquirePipeline ρ := hst ▸ (Shape.running hpc).mp hs
    refine Shape.of_running hpc rfl ?_
    rcases onAcquirePipeline_cases h with ⟨v, -, ⟨e, rfl⟩ | rfl | rfl⟩ | ⟨-, ⟨e, rfl⟩ | rfl⟩
    · trivial
    · exact ⟨hroll, hpre⟩
    · exact ⟨rfl, hroll, hpre, hres⟩
    · trivial
    · exact ⟨hroll, hpre⟩
  | startPipeline _ hpc hst h =>
    obtain ⟨hch, hroll, hpre, hres⟩ : ShapeAt .startPipeline ρ := hst ▸ (Shape.running hpc).mp hs
    refine Shape.of_running hpc rfl ?_
    have hnew {sel : Select σ} {r : Resolution} {b b' : AppendFSM} {w w' : Replica σ}
        (h : startNewPipeline sel r b w = (b', w'))
        (hb : b.plnReturnCh = true ∧ b.rollToOffset = 0 ∧ PreStream b ∧ ResolvedPrimary b) :
        ShapeAt b'.state { ρ with fsm := b' } := by
      obtain ⟨hch, hroll, hpre, hres⟩ := hb
      rcases startNewPipeline_cases h with ⟨_, rfl, -⟩ | ⟨-, ⟨e, rfl⟩ | rfl⟩
      · exact ⟨⟨hch, by simp⟩, hpre, hres⟩
      · trivial
      · exact ⟨hroll, hpre⟩
    rcases onStartPipeline_cases h with
      ⟨r, -, ⟨p, pl, hp, -, -, rfl, -⟩ | ⟨-, h⟩ | ⟨p, pl, -, -, -, h⟩⟩
    · exact ⟨⟨hch, by simp [hp]⟩, hroll, hpre, hres⟩
    · exact hnew h ⟨hch, hroll, hpre, hres⟩
    · exact hnew h ⟨hch, hroll, hpre, hres⟩
  | sendPipelineSync hpc hst _ _ h =>
    obtain ⟨hhold, hpre, hres⟩ : ShapeAt .sendPipelineSync ρ := hst ▸ (Shape.running hpc).mp hs
    obtain ⟨r, -, rfl, -⟩ := onSendPipelineSync_eq C h
    exact Shape.of_running hpc rfl ⟨hhold, hpre, hres⟩
  | recvPipelineSync _ _ _ _ hpc hst _ _ h =>
    obtain ⟨hhold, hpre, hres⟩ : ShapeAt .recvPipelineSync ρ := hst ▸ (Shape.running hpc).mp hs
    refine Shape.of_running hpc rfl ?_
    rcases onRecvPipelineSync_cases h with ⟨e, -, rfl, -⟩ | ⟨-, -, ⟨-, rfl, -⟩ |
      ⟨hroll, -, rfl, -⟩ | ⟨hroll, -, rfl, -⟩⟩
    · trivial
    · exact ⟨hhold, hpre, hres⟩
    · exact ⟨hroll, hpre⟩
    · exact ⟨hhold, hroll, hpre, hres⟩
  | updateAssignments _ _ hpc hst h =>
    obtain ⟨hhold, hroll, hpre, r', hr', hok', -⟩ : ShapeAt .updateAssignments ρ :=
      hst ▸ (Shape.running hpc).mp hs
    refine Shape.of_running hpc rfl ?_
    rcases onUpdateAssignments_cases h with
      ⟨r, hr, ⟨hm, rfl⟩ | ⟨-, ⟨e, -, rfl⟩ | ⟨-, rfl⟩⟩⟩
    · rw [hr'] at hr
      cases hr
      exact ⟨hroll, hpre, r', hr', hok', fun _ => ⟨hhold, hm⟩⟩
    · trivial
    · exact ⟨hroll, hpre⟩
  | awaitDesiredReplicas hpc hst h =>
    obtain ⟨hroll, hpre, r', hr', hok', hprim⟩ : ShapeAt .awaitDesiredReplicas ρ :=
      hst ▸ (Shape.running hpc).mp hs
    refine Shape.of_running hpc rfl ?_
    rcases onAwaitDesiredReplicas_cases h with ⟨r, hr, ⟨-, rfl⟩ | ⟨-, rfl⟩ | ⟨-, -, rfl⟩ |
      ⟨hn, hp, rfl⟩⟩
    · exact ⟨hroll, hpre⟩
    · trivial
    · exact hroll
    · rw [hr'] at hr
      cases hr
      obtain ⟨hhold, hm⟩ := hprim hp
      exact ⟨hhold, hroll, hpre, r', hr', hok', hp, hm, hn⟩
  | validateOffset _ _ hpc hst _ _ h =>
    obtain ⟨hhold, hroll, hpre, hchk⟩ : ShapeAt .validateOffset ρ :=
      hst ▸ (Shape.running hpc).mp hs
    refine Shape.of_running hpc rfl ?_
    obtain ⟨r', hr', hok', hp', hm, hn⟩ := hchk
    rcases onValidateOffset_cases C h with
      ⟨r, hr, ⟨e, -, rfl⟩ | ⟨-, ⟨st, rfl⟩ | ⟨-, -, -, rfl⟩ | ⟨hw, ho, rfl⟩⟩⟩
    · trivial
    · trivial
    · exact ⟨hhold, hpre, r', hr', hok', hp'⟩
    · rw [hr'] at hr
      cases hr
      exact ⟨hhold, hroll, ⟨r', hr', hok', hp', hm, hn⟩, ⟨r', _, _, hr', rfl, hw, ho⟩, rfl,
        fun _ => hpre.1⟩
  | chunk _ _ hpc hst _ _ h =>
    have hs : ShapeAt .streamContent ρ := hst ▸ (Shape.running hpc).mp hs
    exact Shape.of_running hpc rfl ((hs.onStreamContent hst h).sawChunk true)
  | tickIdle _ hpc hst _ _ _ h =>
    have hs : ShapeAt .streamContent ρ := hst ▸ (Shape.running hpc).mp hs
    exact Shape.of_running hpc rfl (hs.onStreamContent hst h)
  | tick hpc hst _ =>
    have hs := (Shape.running hpc).mp hs
    refine Shape.of_running hpc rfl ?_
    dsimp only
    rw [hst] at hs ⊢
    exact hs
  | releaseSendSide _ hpc hst _ _ h =>
    obtain ⟨⟨-, hpln⟩, hroll, hres⟩ : ShapeAt .readAcknowledgements ρ :=
      hst ▸ (Shape.running hpc).mp hs
    obtain ⟨hp, -⟩ : Holding ρ.fsm := ((hst ▸ (Shape.running hpc).mp hs) :
      ShapeAt .readAcknowledgements ρ).1
    obtain ⟨pl₁, heq, -⟩ := releaseSendSide_eq _ _ _ _ hp
    rw [heq] at h
    cases h
    exact ⟨rfl, hst, rfl, hpln, hres, hroll⟩
  | passBarrier hpc _ _ _ =>
    simp only [Shape, hpc] at hs
    exact hs.2
  | readAcknowledgements _ hpc _ _ h =>
    simp only [Shape, hpc] at hs
    obtain ⟨-, -, -, -, hroll⟩ := hs
    simp only [Shape]
    obtain ⟨e, rfl | rfl⟩ := readAcknowledgements_fsm h
    · trivial
    · exact hroll
  | exit hpc hst h =>
    rw [returnPipeline_eq] at h
    cases h
    refine ⟨rfl, fun hne => ?_⟩
    have hs := (Shape.running hpc).mp hs
    rcases hst with hst | hst | hst
    · exact absurd hst hne
    all_goals rw [hst] at hs; exact hs

/-- Every append of a reachable state has its shape. -/
theorem Reachable.shape {s : System σ} (hs : Reachable C Initial s) : ∀ ρ ∈ s.runs, Shape ρ := by
  induction hs with
  | init h =>
    intro ρ hρ
    rw [h.runs ρ hρ]
    exact shape_init _
  | step _ hstep ih =>
    obtain ⟨hi, h⟩ := hstep
    intro ρ hρ
    rcases List.mem_or_eq_of_mem_set hρ with hρ | rfl
    · exact ih ρ hρ
    · exact h.shape (ih _ (List.getElem?_mem hi))

end Gazette.Broker
