import Gazette.Broker.Handoff

/-! Which requests carry a header. `onSendPipelineSync` attaches the pipeline's header and
journal exactly when `rollToOffset = 0`, taking that for "first sync of this pipeline". Outside
the sync round `rollToOffset` is 0, except in stateError after a failed sync round, which
keeps the offset it was rolling to; and an append is at `rollToOffset = 0` in
stateSendPipelineSync exactly when its pipeline has had nothing scattered, so on each
pipeline built by `newPipeline` the first request is the sync proposal with the header and
every later one carries neither. -/

namespace Gazette.Broker

variable {σ : Type} {C : Collaborators σ} {i : Nat} {ρ ρ' : Run} {w w' : Replica σ}

/-! ### `rollToOffset` -/

theorem ShapeAt.rollToOffset {st : AppendState} (h : ShapeAt st ρ)
    (h₁ : st ≠ .sendPipelineSync) (h₂ : st ≠ .recvPipelineSync) (h₃ : st ≠ .error) :
    ρ.fsm.rollToOffset = 0 := by
  cases st with
  | resolve | awaitDesiredReplicas => exact h.1
  | acquirePipeline | startPipeline | updateAssignments | validateOffset | streamContent
  | readAcknowledgements => exact h.2.1
  | proxy | finished => exact h
  | sendPipelineSync => exact absurd rfl h₁
  | recvPipelineSync => exact absurd rfl h₂
  | error => exact absurd rfl h₃

theorem Shape.rollToOffset (hs : Shape ρ) (h₁ : ρ.fsm.state ≠ .sendPipelineSync)
    (h₂ : ρ.fsm.state ≠ .recvPipelineSync) (h₃ : ρ.fsm.state ≠ .error) :
    ρ.fsm.rollToOffset = 0 := by
  unfold Shape at hs
  split at hs
  · exact hs.rollToOffset h₁ h₂ h₃
  · exact hs.2.2.2.2.2
  · exact hs.2.2.2.2
  · exact hs.2 h₃

theorem rollToOffset_error_reachable :
    let C₀ : Collaborators Fragment := ⟨id, fun f => { f with begin := f.end }, fun f _ => f,
      fun f _ _ => f, fun _ => none, fun _ => .zero⟩
    ∃ s, Reachable C₀ NewReplica s ∧
      ∃ ρ ∈ s.runs, ρ.fsm.state = .error ∧ ρ.fsm.rollToOffset = 5 := by
  intro C₀
  let r₀ : Resolution := ⟨.ok, ⟨⟨"local", "broker"⟩, ⟨[⟨"local", "broker"⟩], 0⟩, 1⟩,
    ⟨"local", "broker"⟩, ⟨"a/journal", 1, .rdWr, ⟨1024, .none⟩⟩, []⟩
  let pl₀ : Pipeline Fragment := newPipeline r₀.header ⟨"a/journal", 0, 0, .zero, .none, "", 0⟩
  let ρ₀ := Run.init ⟨none, "a/journal", false, 0, [1]⟩
  let ρ₁ : Run := { ρ₀ with fsm := { ρ₀.fsm with resolved := some r₀, state := .acquirePipeline } }
  let ρ₂ : Run := { ρ₁ with fsm := { ρ₁.fsm with plnReturnCh := true, state := .startPipeline } }
  let ρ₃ : Run := { ρ₂ with fsm := { ρ₂.fsm with pln := some 0, state := .sendPipelineSync } }
  let ρ₄ : Run := { ρ₃ with fsm := { ρ₃.fsm with state := .recvPipelineSync } }
  let pl₁ := pl₀.scatter C₀ 0 .sendPipelineSync (syncRequest C₀ r₀ ρ₃.fsm pl₀)
  have h₀ : Reachable C₀ NewReplica ⟨⟨[none], []⟩, [ρ₀]⟩ :=
    .init ⟨⟨fun _ hρ => by rw [List.mem_singleton.mp hρ]; rfl, none, rfl, fun _ h => nomatch h⟩,
      rfl⟩
  have h₁ := h₀.step (.run rfl
    (.resolve (fun _ => .ok r₀) rfl rfl rfl : RunStep C₀ 0 ρ₀ ⟨[none], []⟩ ρ₁ ⟨[none], []⟩))
  have h₂ := h₁.step (.run rfl
    (.acquirePipeline (.recv .pass) rfl rfl rfl : RunStep C₀ 0 ρ₁ ⟨[none], []⟩ ρ₂ ⟨[], []⟩))
  have h₃ := h₂.step (.run rfl (.startPipeline (.recv ⟨"a/journal", 0, 0, .zero, .none, "", 0⟩)
    rfl rfl rfl : RunStep C₀ 0 ρ₂ ⟨[], []⟩ ρ₃ ⟨[], [pl₀]⟩))
  have h₄ := h₃.step (.run rfl (.sendPipelineSync rfl rfl (rfl : ρ₃.fsm.pln = some 0) rfl rfl :
    RunStep C₀ 0 ρ₃ ⟨[], [pl₀]⟩ ρ₄ ⟨[], [pl₁]⟩))
  have h₅ := h₄.step (.run rfl (.recvPipelineSync 5 0 (some .eof) none rfl rfl
    (rfl : ρ₄.fsm.pln = some 0) rfl rfl : RunStep C₀ 0 ρ₄ ⟨[], [pl₁]⟩ _ _))
  exact ⟨_, h₅, _, List.mem_singleton_self _, rfl, rfl⟩

/-! ### The requests scattered on a pipeline -/

def Call.request (c : Call) : Option ReplicateRequest :=
  match c.op with
  | .scatter req => some req
  | _ => none

/-- The requests scattered on the log, oldest first. -/
def sent (log : List Call) : List ReplicateRequest := (log.filterMap Call.request).reverse

theorem sent_append (new log : List Call) : sent (new ++ log) = sent log ++ sent new := by
  simp [sent, List.filterMap_append]

theorem sent_eq_nil {log : List Call} : sent log = [] ↔ Fresh log := by
  simp only [sent, List.reverse_eq_nil_iff, List.filterMap_eq_nil_iff, Fresh]
  refine forall₂_congr fun c _ => ?_
  unfold Call.request
  cases c.op <;> simp [Op.isScatter]

theorem mem_sent {r : ReplicateRequest} {log : List Call} :
    r ∈ sent log ↔ ∃ c ∈ log, c.op = .scatter r := by
  simp only [sent, List.mem_reverse, List.mem_filterMap]
  refine exists_congr fun c => and_congr_right fun _ => ?_
  unfold Call.request
  cases c.op <;> simp

theorem syncRequest_first (r : Resolution) {b : AppendFSM} (pl : Pipeline σ)
    (h : b.rollToOffset = 0) :
    syncRequest C r b pl =
      { proposal := some (C.nextProposal pl.spool 0 r.journalSpec.fragment), acknowledge := true,
        header := some pl.header, journal := (C.fragment pl.spool).journal } := by
  simp [syncRequest, h]

theorem RunStep.of_sendPipelineSync (h : RunStep C i ρ w ρ' w') (hpc : ρ.pc = .running)
    (hst : ρ.fsm.state = .sendPipelineSync) :
    ∃ p pl r, ρ.fsm.pln = some p ∧ w.pipelines[p]? = some pl ∧ ρ.fsm.resolved = some r ∧
      w' = { w with
        pipelines := w.pipelines.set p (pl.scatter C i .sendPipelineSync (syncRequest C r ρ.fsm pl)) }
      := by
  cases h with
  | @sendPipelineSync p pl _ _ _ _ hp hpl h =>
    obtain ⟨r, hr, -, rfl⟩ := onSendPipelineSync_eq C h
    exact ⟨p, pl, r, hp, hpl, hr, rfl⟩
  | resolve _ _ hst' | acquirePipeline _ _ hst' | startPipeline _ _ hst'
  | recvPipelineSync _ _ _ _ _ hst' | updateAssignments _ _ _ hst' | awaitDesiredReplicas _ hst'
  | validateOffset _ _ _ hst' | chunk _ _ _ hst' | tickIdle _ _ hst' | tick _ hst'
  | releaseSendSide _ _ hst' => exact absurd (hst.symm.trans hst') (by decide)
  | passBarrier hpc' | readAcknowledgements _ hpc' => exact absurd (hpc.symm.trans hpc') nofun
  | exit _ hst' => rcases hst' with h | h | h <;> exact absurd (hst.symm.trans h) (by decide)

theorem RunStep.sent_requests {s : System σ} (hs : Reachable C NilStart s) (hi : s.runs[i]? = some ρ)
    (h : RunStep C i ρ s.replica ρ' w') {q : Nat} {pl pl' : Pipeline σ}
    (hpl : s.replica.pipelines[q]? = some pl) (hpl' : w'.pipelines[q]? = some pl') :
    pl'.header = pl.header ∧
    (sent pl.log = [] → sent pl'.log = [] ∨ ∃ proposal, sent pl'.log =
      [{ proposal := some proposal, acknowledge := true, header := some pl.header,
         journal := (C.fragment pl.spool).journal }]) ∧
    (sent pl.log ≠ [] → ∃ more, sent pl'.log = sent pl.log ++ more ∧
      ∀ r ∈ more, r.header = none ∧ r.journal = "") := by
  have hρ := List.getElem?_mem hi
  have hsh := (hs.mono fun _ h => h.1).shape ρ hρ
  obtain ⟨pl₁, hpl₁, new, hsteps, hnew⟩ := h.extends hsh hpl
  rw [hpl'] at hpl₁
  cases hpl₁
  by_cases hx : ρ.pc = .running ∧ ρ.fsm.plnReturnCh = true ∧ ρ.fsm.pln = some q ∧
    ρ.fsm.state = .sendPipelineSync ∧ ρ.fsm.rollToOffset = 0
  · obtain ⟨hpc, hret, hp, hst, hroll⟩ := hx
    obtain ⟨pl₀, hq, hat⟩ := hs.handoff.2 ρ hρ hpc hret q hp
    rw [hpl] at hq
    cases hq
    have hfresh : sent pl.log = [] := sent_eq_nil.mpr (hat.fresh.mpr ⟨hst, hroll⟩)
    obtain ⟨p, pl₂, r, hp₂, hpl₂, -, rfl⟩ := h.of_sendPipelineSync hpc hst
    rw [hp] at hp₂
    cases hp₂
    rw [hpl] at hpl₂
    cases hpl₂
    rw [getElem?_set_of_some hpl] at hpl'
    cases hpl'
    refine ⟨rfl, fun _ => .inr ⟨C.nextProposal pl.spool 0 r.journalSpec.fragment, ?_⟩,
      fun h => absurd hfresh h⟩
    rw [Pipeline.scatter_log, ← List.singleton_append, sent_append, hfresh, syncRequest_first r pl hroll]
    rfl
  · have hsent : ∀ r ∈ sent new, r.header = none ∧ r.journal = "" := fun r hr => by
      obtain ⟨c, hc, hop⟩ := mem_sent.mp hr
      have hf := (hnew c hc).2.2
      rw [hop] at hf
      obtain ⟨⟨hret, -⟩, hp, hhdr, hj, -⟩ := hf
      have hnone : r.header = none := by
        by_contra hne
        obtain ⟨hst, hroll⟩ := hhdr hne
        exact hx ⟨hsh.running_of_holding hret, hret, hp, hst, hroll⟩
      exact ⟨hnone, hj hnone⟩
    refine ⟨hsteps.header, fun hfresh => .inl ?_,
      fun _ => ⟨sent new, by rw [hsteps.log, sent_append], hsent⟩⟩
    rw [hsteps.log, sent_append, hfresh, List.nil_append]
    refine List.eq_nil_iff_forall_not_mem.mpr fun r hr => ?_
    obtain ⟨c, hc, hop⟩ := mem_sent.mp hr
    have hf := (hnew c hc).2.2
    rw [hop] at hf
    obtain ⟨⟨hret, -⟩, hp, -⟩ := hf
    have hpc := hsh.running_of_holding hret
    obtain ⟨pl₀, hq, hat⟩ := hs.handoff.2 ρ hρ hpc hret q hp
    rw [hpl] at hq
    cases hq
    obtain ⟨hst, hroll⟩ := hat.fresh.mp (sent_eq_nil.mp hfresh)
    exact hx ⟨hpc, hret, hp, hst, hroll⟩

/-! ### Every pipeline of a new replica -/

theorem NewReplica.nilStart {s : System σ} (h : NewReplica s) : NilStart s := by
  obtain ⟨⟨hruns, v, hv, hvp⟩, hpl⟩ := h
  refine ⟨⟨hruns, v, hv, hvp⟩, ?_⟩
  cases v with
  | none => exact hv
  | some p => exact absurd (hvp p rfl) (by simp [hpl])

/-- The first request scattered on the pipeline carries its header, and no later one carries
a header or a journal. -/
def SyncFirst (pl : Pipeline σ) : Prop :=
  ∀ first later, sent pl.log = first :: later →
    first.header = some pl.header ∧ ∀ r ∈ later, r.header = none ∧ r.journal = ""

theorem SyncFirst.step {pl pl' : Pipeline σ} (hsf : SyncFirst pl) (hh : pl'.header = pl.header)
    (h₁ : sent pl.log = [] → sent pl'.log = [] ∨ ∃ proposal, sent pl'.log =
      [{ proposal := some proposal, acknowledge := true, header := some pl.header,
         journal := (C.fragment pl.spool).journal }])
    (h₂ : sent pl.log ≠ [] → ∃ more, sent pl'.log = sent pl.log ++ more ∧
      ∀ r ∈ more, r.header = none ∧ r.journal = "") : SyncFirst pl' := by
  intro first later hsent
  rw [hh]
  by_cases h₀ : sent pl.log = []
  · rcases h₁ h₀ with h | ⟨_, h⟩ <;> rw [h] at hsent <;> cases hsent
    exact ⟨rfl, fun _ hr => nomatch hr⟩
  · obtain ⟨more, hm, hmore⟩ := h₂ h₀
    obtain ⟨f₀, l₀, hl⟩ := List.exists_cons_of_ne_nil h₀
    rw [hm, hl, List.cons_append] at hsent
    obtain ⟨rfl, rfl⟩ := List.cons.inj hsent
    obtain ⟨hf, hl₀⟩ := hsf f₀ l₀ hl
    exact ⟨hf, fun r hr => (List.mem_append.mp hr).elim (hl₀ r) (hmore r)⟩

theorem Reachable.syncFirst {s : System σ} (hs : Reachable C NewReplica s) :
    ∀ (q : Nat) (pl : Pipeline σ), s.replica.pipelines[q]? = some pl → SyncFirst pl := by
  induction hs with
  | init h =>
    intro q pl hq
    rw [h.2] at hq
    cases hq
  | step hr hst ih =>
    obtain ⟨hi, h⟩ := hst
    intro q pl' hq'
    have hsh := (hr.mono fun _ h => h.1).shape _ (List.getElem?_mem hi)
    rcases h.logs hsh hq' with ⟨pl, new, hpl, -, -⟩ | ⟨-, -, -, -, r, spool, -, rfl⟩
    · obtain ⟨hh, h₁, h₂⟩ := h.sent_requests (hr.mono fun _ h => h.nilStart) hi hpl hq'
      exact (ih q pl hpl).step hh h₁ h₂
    · intro first later hsent
      cases hsent

/-- From a new replica, in every interleaving: every append outside the sync round is at
`rollToOffset = 0`, and the first request scattered on each pipeline is its sync proposal. -/
theorem first_scatter_syncs {s : System σ} (hs : Reachable C NewReplica s) :
    (∀ ρ ∈ s.runs, ρ.fsm.state ≠ .sendPipelineSync → ρ.fsm.state ≠ .recvPipelineSync →
      ρ.fsm.state ≠ .error → ρ.fsm.rollToOffset = 0) ∧
    (∀ (q : Nat) (pl : Pipeline σ), s.replica.pipelines[q]? = some pl →
      ∀ first later, sent pl.log = first :: later →
      first.header = some pl.header ∧ ∀ r ∈ later, r.header = none ∧ r.journal = "") ∧
    (∀ i ρ ρ' w' (q : Nat) (pl pl' : Pipeline σ), s.runs[i]? = some ρ →
      RunStep C i ρ s.replica ρ' w' →
      s.replica.pipelines[q]? = some pl → w'.pipelines[q]? = some pl' → sent pl.log = [] →
      sent pl'.log ≠ [] → ∃ proposal, sent pl'.log =
        [{ proposal := some proposal, acknowledge := true, header := some pl.header,
           journal := (C.fragment pl.spool).journal }]) :=
  ⟨fun ρ hρ => ((hs.mono fun _ h => h.1).shape ρ hρ).rollToOffset, hs.syncFirst,
    fun _ _ _ _ _ _ _ hi h hpl hpl' h₀ hne =>
      ((h.sent_requests (hs.mono fun _ h => h.nilStart) hi hpl hpl').2.1 h₀).resolve_left hne⟩

theorem first_scatter_syncs_sample :
    (Reachable sampleCollaborators NewReplica sampleBuilt ∧
      sampleBuilt.runs[0]? = some sampleBuilder ∧
      (∃ ρ', RunStep sampleCollaborators 0 sampleBuilder sampleBuilt.replica ρ'
        ⟨[], [(newPipeline sampleResolution.header sampleSpool).scatter sampleCollaborators 0
          .sendPipelineSync sampleSyncRequest]⟩) ∧
      (∀ ρ ∈ sampleBuilt.runs, ρ.fsm.state ≠ .sendPipelineSync → ρ.fsm.state ≠ .recvPipelineSync →
        ρ.fsm.state ≠ .error → ρ.fsm.rollToOffset = 0) ∧
      (∀ (q : Nat) (pl : Pipeline Fragment), sampleBuilt.replica.pipelines[q]? = some pl →
        ∀ first later, sent pl.log = first :: later →
        first.header = some pl.header ∧ ∀ r ∈ later, r.header = none ∧ r.journal = "") ∧
      (∀ i ρ ρ' w' (q : Nat) (pl pl' : Pipeline Fragment), sampleBuilt.runs[i]? = some ρ →
        RunStep sampleCollaborators i ρ sampleBuilt.replica ρ' w' →
        sampleBuilt.replica.pipelines[q]? = some pl → w'.pipelines[q]? = some pl' →
        sent pl.log = [] → sent pl'.log ≠ [] → ∃ proposal, sent pl'.log =
          [{ proposal := some proposal, acknowledge := true, header := some pl.header,
             journal := (sampleCollaborators.fragment pl.spool).journal }])) ∧
    (Reachable sampleCollaborators NewReplica sampleHandoff ∧
      sent sampleCommitted.log = [sampleSyncRequest, { content := [1] },
        { proposal := some ⟨"a/journal", 1, 1, .zero, .none, "", 0⟩, acknowledge := true }] ∧
      (∀ ρ ∈ sampleHandoff.runs, ρ.fsm.state ≠ .sendPipelineSync → ρ.fsm.state ≠ .recvPipelineSync →
        ρ.fsm.state ≠ .error → ρ.fsm.rollToOffset = 0) ∧
      (∀ (q : Nat) (pl : Pipeline Fragment), sampleHandoff.replica.pipelines[q]? = some pl →
        ∀ first later, sent pl.log = first :: later →
        first.header = some pl.header ∧ ∀ r ∈ later, r.header = none ∧ r.journal = "") ∧
      (∀ i ρ ρ' w' (q : Nat) (pl pl' : Pipeline Fragment), sampleHandoff.runs[i]? = some ρ →
        RunStep sampleCollaborators i ρ sampleHandoff.replica ρ' w' →
        sampleHandoff.replica.pipelines[q]? = some pl → w'.pipelines[q]? = some pl' →
        sent pl.log = [] → sent pl'.log ≠ [] → ∃ proposal, sent pl'.log =
          [{ proposal := some proposal, acknowledge := true, header := some pl.header,
             journal := (sampleCollaborators.fragment pl.spool).journal }])) :=
  have hb := sampleBuilt_reachable.mono fun _ h => h ▸ sampleStart_start.1
  have hh := sampleHandoff_reachable.mono fun _ h => h ▸ sampleStart_start.1
  ⟨⟨hb, rfl, ⟨_, (.sendPipelineSync rfl rfl rfl rfl rfl :
      RunStep sampleCollaborators 0 sampleBuilder sampleBuilt.replica _ _)⟩,
      first_scatter_syncs hb⟩,
    ⟨hh, rfl, first_scatter_syncs hh⟩⟩

end Gazette.Broker
