import Gazette.Broker.Handlers

/-! What each handler can do, case by case. The invariants of the later modules are proved
from these lemmas and never unfold a handler. -/

namespace Gazette.Broker

variable {σ : Type} (C : Collaborators σ)

theorem returnPipeline_eq (b : AppendFSM) (ch : List (Option Nat)) :
    returnPipeline b ch =
      ({ b with plnReturnCh := false }, if b.plnReturnCh then ch ++ [b.pln] else ch) := by
  unfold returnPipeline
  cases b
  split <;> simp_all

theorem onResolve_cases {resolve : ResolveArgs → Except Error Resolution} {b b' : AppendFSM}
    {ch ch' : List (Option Nat)} (h : onResolve resolve b ch = (b', ch')) :
    (ch' = ch ∧
      ((∃ e, b' = { b with
          resolved := none, err := some (.withMessage "resolve" e), state := .error }) ∨
        (∃ r, r.status ≠ .ok ∧ b' = { b with resolved := some r, err := none, state := .error }) ∨
        (∃ r, r.status = .ok ∧ r.isPrimary = true ∧ b.plnReturnCh = true ∧
          b' = { b with resolved := some r, err := none, state := .startPipeline }) ∨
        (∃ r, r.status = .ok ∧ r.isPrimary = true ∧ b.plnReturnCh = false ∧
          b' = { b with resolved := some r, err := none, state := .acquirePipeline }))) ∨
    (∃ r, r.status = .ok ∧ r.isPrimary = false ∧
      b' = { b with
        resolved := some r, err := none, plnReturnCh := false, state := .awaitDesiredReplicas } ∧
      ch' = if b.plnReturnCh then ch ++ [b.pln] else ch) := by
  unfold onResolve at h
  rcases hres : resolve (resolveArgs b) with e | r <;> rw [hres] at h
  · simp only [Prod.mk.injEq] at h
    exact .inl ⟨h.2.symm, .inl ⟨e, h.1.symm⟩⟩
  · by_cases h1 : r.status = .ok
    · cases h2 : r.isPrimary <;> cases h3 : b.plnReturnCh <;>
        simp only [h1, h2, h3, returnPipeline, ne_eq, not_true_eq_false, Bool.not_false,
          Bool.not_true, ite_false, ite_true, Bool.false_eq_true, Prod.mk.injEq] at h <;>
        obtain ⟨rfl, rfl⟩ := h
      · refine .inr ⟨r, h1, h2, ?_, by simp [h3]⟩
        cases b
        simp_all
      · exact .inr ⟨r, h1, h2, rfl, by simp [h3]⟩
      · exact .inl ⟨rfl, .inr (.inr (.inr ⟨r, h1, h2, rfl, rfl⟩))⟩
      · exact .inl ⟨rfl, .inr (.inr (.inl ⟨r, h1, h2, rfl, rfl⟩))⟩
    · simp only [h1, ne_eq, not_false_eq_true, ite_true, Prod.mk.injEq] at h
      obtain ⟨rfl, rfl⟩ := h
      exact .inl ⟨rfl, .inr (.inl ⟨r, h1, rfl⟩)⟩

theorem onAcquirePipeline_cases {sel : Select PostCheck} {b b' : AppendFSM}
    {ch ch' : List (Option Nat)} (h : onAcquirePipeline sel b ch = some (b', ch')) :
    (∃ v, ch = v :: ch' ∧
      ((∃ e, b' = canceledWaiting "waiting for pipeline" e { b with pln := v, plnReturnCh := true }) ∨
        b' = { b with pln := v, plnReturnCh := true, state := .resolve } ∨
        b' = { b with pln := v, plnReturnCh := true, state := .startPipeline })) ∨
    (ch' = ch ∧
      ((∃ e, b' = canceledWaiting "waiting for pipeline" e b) ∨ b' = { b with state := .resolve })) := by
  unfold onAcquirePipeline at h
  split at h
  · rename_i post v rest
    cases post <;> simp only [Option.some.injEq, Prod.mk.injEq] at h <;> obtain ⟨rfl, rfl⟩ := h
    · exact .inl ⟨v, rfl, .inl ⟨_, rfl⟩⟩
    · exact .inl ⟨v, rfl, .inr (.inl rfl)⟩
    · exact .inl ⟨v, rfl, .inr (.inr rfl)⟩
  · cases h
  all_goals simp only [Option.some.injEq, Prod.mk.injEq] at h; obtain ⟨rfl, rfl⟩ := h
  · exact .inr ⟨rfl, .inl ⟨_, rfl⟩⟩
  · exact .inr ⟨rfl, .inr rfl⟩

theorem startNewPipeline_cases {sel : Select σ} {r : Resolution} {b b' : AppendFSM}
    {w w' : Replica σ} (h : startNewPipeline sel r b w = (b', w')) :
    (∃ spool, b' = { b with pln := some w.pipelines.length, state := .sendPipelineSync } ∧
      w' = { w with pipelines := w.pipelines ++ [newPipeline r.header spool] }) ∨
    (w' = w ∧
      ((∃ e, b' = canceledWaiting "waiting for spool" e b) ∨ b' = { b with state := .resolve })) := by
  unfold startNewPipeline at h
  split at h <;> simp only [Prod.mk.injEq] at h <;> obtain ⟨rfl, rfl⟩ := h
  · exact .inl ⟨_, rfl, rfl⟩
  · exact .inr ⟨rfl, .inl ⟨_, rfl⟩⟩
  · exact .inr ⟨rfl, .inr rfl⟩

theorem onStartPipeline_cases {i : Nat} {sel : Select σ} {b b' : AppendFSM} {w w' : Replica σ}
    (h : onStartPipeline i sel b w = some (b', w')) :
    ∃ r, b.resolved = some r ∧
      ((∃ p pl, b.pln = some p ∧ w.pipelines[p]? = some pl ∧
          pl.header.route.equivalent r.header.route = true ∧
          b' = { b with state := .updateAssignments } ∧ w' = w) ∨
        (b.pln = none ∧ startNewPipeline sel r b w = (b', w')) ∨
        (∃ p pl, b.pln = some p ∧ w.pipelines[p]? = some pl ∧
          pl.header.route.equivalent r.header.route = false ∧
          startNewPipeline sel r { b with pln := none }
            { w with pipelines := w.pipelines.set p (pl.record i .startPipeline (.shutdown false)) } =
            (b', w'))) := by
  unfold onStartPipeline at h
  obtain ⟨r, hr, h⟩ := Option.bind_eq_some.mp h
  refine ⟨r, hr, ?_⟩
  split at h
  · exact .inr (.inl ⟨‹_›, Option.some.inj h⟩)
  · rename_i p hp
    obtain ⟨pl, hpl, h⟩ := Option.bind_eq_some.mp h
    split at h
    · simp only [Option.some.injEq, Prod.mk.injEq] at h
      obtain ⟨rfl, rfl⟩ := h
      exact .inl ⟨p, pl, hp, hpl, ‹_›, rfl, rfl⟩
    · rename_i hne
      exact .inr (.inr ⟨p, pl, hp, hpl, by simpa using hne, Option.some.inj h⟩)

theorem onSendPipelineSync_eq {i : Nat} {b b' : AppendFSM} {pl pl' : Pipeline σ}
    (h : onSendPipelineSync C i b pl = some (b', pl')) :
    ∃ r, b.resolved = some r ∧ b' = { b with state := .recvPipelineSync } ∧
      pl' = pl.scatter C i .sendPipelineSync (syncRequest C r b pl) := by
  unfold onSendPipelineSync at h
  obtain ⟨r, hr, h⟩ := Option.bind_eq_some.mp h
  simp only [Option.some.injEq, Prod.mk.injEq] at h
  exact ⟨r, hr, h.1.symm, h.2.symm⟩

theorem gatherSyncRound_snd (i : Nat) (roll rev : Int) (recvFailure sendFailure : Option Error)
    (pl : Pipeline σ) :
    (gatherSyncRound i roll rev recvFailure sendFailure pl).2 =
      (pl.recvErrResult recvFailure).or (pl.sendErrResult sendFailure) := by
  unfold gatherSyncRound
  simp only [Pipeline.recvErrResult, Pipeline.sendErrResult, Pipeline.record_recvLatch,
    Pipeline.record_sendLatch, Pipeline.recvErr_sendLatch]
  split <;> rename_i he <;> rw [he] <;> rfl

theorem gatherSyncRound_fst (i : Nat) (roll rev : Int) (recvFailure sendFailure : Option Error)
    (pl : Pipeline σ) :
    (gatherSyncRound i roll rev recvFailure sendFailure pl).1 =
      let pl₁ := (pl.record i .recvPipelineSync (.gatherSync roll rev)).recvErr i
        .recvPipelineSync recvFailure
      if pl.recvErrResult recvFailure = none then pl₁.sendErr i .recvPipelineSync sendFailure
      else pl₁ := by
  unfold gatherSyncRound
  simp only [Pipeline.recvErrResult, Pipeline.record_recvLatch]
  split <;> rename_i he <;> simp [he]

theorem onRecvPipelineSync_cases {i : Nat} {roll rev : Int}
    {recvFailure sendFailure : Option Error} {b b' : AppendFSM} {pl pl' : Pipeline σ}
    (h : onRecvPipelineSync i roll rev recvFailure sendFailure b pl = (b', pl')) :
    (∃ e, (pl.recvErrResult recvFailure).or (pl.sendErrResult sendFailure) = some e ∧
      b' = { b with
        rollToOffset := roll, readThroughRev := rev, pln := none
        err := some (.withMessage "gatherSync" e), state := .error } ∧
      pl' = (gatherSyncRound i roll rev recvFailure sendFailure pl).1.record i .recvPipelineSync
        (.shutdown true)) ∨
    (pl.recvErrResult recvFailure = none ∧ pl.sendErrResult sendFailure = none ∧
      ((roll ≠ 0 ∧ b' = { b with
          rollToOffset := roll, readThroughRev := rev, err := none, state := .sendPipelineSync } ∧
          pl' = (gatherSyncRound i roll rev recvFailure sendFailure pl).1) ∨
        (roll = 0 ∧ rev ≠ 0 ∧ b' = { b with
          rollToOffset := roll, readThroughRev := rev, pln := none, err := none
          state := .resolve } ∧
          pl' = (gatherSyncRound i roll rev recvFailure sendFailure pl).1.record i
            .recvPipelineSync (.shutdown false)) ∨
        (roll = 0 ∧ rev = 0 ∧ b' = { b with
          rollToOffset := roll, readThroughRev := rev, err := none
          state := .updateAssignments } ∧
          pl' = (gatherSyncRound i roll rev recvFailure sendFailure pl).1))) := by
  unfold onRecvPipelineSync at h
  dsimp only at h
  rw [gatherSyncRound_snd] at h
  split at h
  · rename_i e he
    simp only [Prod.mk.injEq] at h
    exact .inl ⟨e, he, h.1.symm, h.2.symm⟩
  · rename_i he
    have hn : pl.recvErrResult recvFailure = none ∧ pl.sendErrResult sendFailure = none := by
      cases hr : pl.recvErrResult recvFailure <;> simp_all
    refine .inr ⟨hn.1, hn.2, ?_⟩
    split_ifs at h with h1 h2 <;> simp only [Prod.mk.injEq] at h <;> obtain ⟨rfl, rfl⟩ := h
    · exact .inl ⟨h1, rfl, rfl⟩
    · exact .inr (.inl ⟨not_not.mp h1, h2, rfl, rfl⟩)
    · exact .inr (.inr ⟨not_not.mp h1, not_not.mp h2, rfl, rfl⟩)

theorem onUpdateAssignments_cases {rev : Int} {err : Option Error} {b b' : AppendFSM}
    (h : onUpdateAssignments rev err b = some b') :
    ∃ r, b.resolved = some r ∧
      ((journalRouteMatchesAssignments r.header.route r.assignments = true ∧
          b' = { b with state := .awaitDesiredReplicas }) ∨
        (journalRouteMatchesAssignments r.header.route r.assignments = false ∧
          ((∃ e, err = some e ∧ b' = { b with
              readThroughRev := rev, err := some (.withMessage "updateAssignments" e)
              state := .error }) ∨
            (err = none ∧ b' = { b with readThroughRev := rev, err := none, state := .resolve })))) := by
  unfold onUpdateAssignments at h
  obtain ⟨r, hr, h⟩ := Option.bind_eq_some.mp h
  refine ⟨r, hr, ?_⟩
  split at h
  · exact .inl ⟨‹_›, (Option.some.inj h).symm⟩
  · rename_i hm
    refine .inr ⟨by simpa using hm, ?_⟩
    split at h
    · exact .inl ⟨_, rfl, (Option.some.inj h).symm⟩
    · exact .inr ⟨rfl, (Option.some.inj h).symm⟩

theorem onAwaitDesiredReplicas_cases {b b' : AppendFSM} (h : onAwaitDesiredReplicas b = some b') :
    ∃ r, b.resolved = some r ∧
      (((r.header.route.members.length : Int) > r.journalSpec.desiredReplication ∧
          b' = { b with readThroughRev := r.header.etcdRevision + 1, state := .resolve }) ∨
        ((r.header.route.members.length : Int) < r.journalSpec.desiredReplication ∧
          b' = { b with
            resolved := some { r with status := .insufficientJournalBrokers }, state := .error }) ∨
        ((r.header.route.members.length : Int) = r.journalSpec.desiredReplication ∧
          r.isPrimary = false ∧ b' = { b with state := .proxy }) ∨
        ((r.header.route.members.length : Int) = r.journalSpec.desiredReplication ∧
          r.isPrimary = true ∧ b' = { b with state := .validateOffset })) := by
  unfold onAwaitDesiredReplicas at h
  obtain ⟨r, hr, h⟩ := Option.bind_eq_some.mp h
  refine ⟨r, hr, ?_⟩
  dsimp only at h
  split_ifs at h with h1 h2 h3 <;> cases h
  · exact .inl ⟨h1, rfl⟩
  · exact .inr (.inl ⟨h2, rfl⟩)
  · exact .inr (.inr (.inl ⟨by omega, by simpa using h3, rfl⟩))
  · exact .inr (.inr (.inr ⟨by omega, by simpa using h3, rfl⟩))

theorem onValidateOffset_cases {refresh : Option Error} {endOffset : Int} {b b' : AppendFSM}
    {pl : Pipeline σ} (h : onValidateOffset C refresh endOffset b pl = some b') :
    ∃ r, b.resolved = some r ∧
      ((∃ e, refresh = some e ∧
          b' = { b with err := some (.withMessage "WaitForFirstRemoteRefresh" e), state := .error }) ∨
        (refresh = none ∧
          ((∃ st, b' = { b with
              err := none, resolved := some { r with status := st }, state := .error }) ∨
            (b.req.offset ≠ 0 ∧ (C.fragment pl.spool).end < b.req.offset ∧
              endOffset ≤ b.req.offset ∧
              b' = { b with err := none, rollToOffset := b.req.offset, state := .sendPipelineSync }) ∨
            ((r.journalSpec.flags.mayWrite = true → endOffset ≤ (C.fragment pl.spool).end) ∧
              (b.req.offset ≠ 0 → (C.fragment pl.spool).end = b.req.offset ∧
                endOffset ≤ (C.fragment pl.spool).end) ∧
              b' = { b with err := none, state := .streamContent })))) := by
  unfold onValidateOffset at h
  obtain ⟨r, hr, h⟩ := Option.bind_eq_some.mp h
  refine ⟨r, hr, ?_⟩
  split at h
  · exact .inl ⟨_, rfl, (Option.some.inj h).symm⟩
  · refine .inr ⟨rfl, ?_⟩
    have hmax : (if endOffset > (C.fragment pl.spool).end then endOffset
        else (C.fragment pl.spool).end) = max (C.fragment pl.spool).end endOffset := by
      split <;> omega
    dsimp only at h
    rw [hmax] at h
    split_ifs at h with h1 h2 h3 <;> cases h
    · exact .inl ⟨_, rfl⟩
    · exact .inl ⟨_, rfl⟩
    · refine .inr (.inl ⟨h3.1, by omega, by omega, ?_⟩)
      congr 1
      omega
    · refine .inr (.inr ⟨fun hw => ?_, fun ho => ⟨by omega, by omega⟩, rfl⟩)
      simp only [hw, and_true] at h1
      omega

theorem releaseSendSide_eq (i : Nat) (failure : Option Error) {b : AppendFSM}
    (pl : Pipeline σ) (ch : List (Option Nat)) (hp : b.plnReturnCh = true) :
    ∃ pl', releaseSendSide i failure b pl ch = some ({ b with plnReturnCh := false }, pl',
        ch ++ [if pl.sendErrResult failure = none then b.pln else none]) ∧
      pl'.recvLatch = pl.recvLatch := by
  unfold releaseSendSide
  rw [if_pos hp]
  split <;> rename_i h <;> simp [h]

theorem readAcknowledgements_finished (i k : Nat) (sendErr failure : Option Error)
    {b : AppendFSM} {r : Resolution} (pl : Pipeline σ) (hr : b.resolved = some r) :
    ∃ b' pl', readAcknowledgements i k sendErr failure b pl = some (b', pl') ∧
      (b'.state = .finished ↔
        b.err = none ∧ r.status = .ok ∧ pl.recvErrResult failure = none ∧ sendErr = none) := by
  have hrecv : (if sendErr.isSome then
      (pl.record i .readAcknowledgements .gatherOK).record i .readAcknowledgements .gatherEOF
      else pl.record i .readAcknowledgements .gatherOK).recvErrResult failure =
      pl.recvErrResult failure := by
    split_ifs <;> rfl
  unfold readAcknowledgements
  simp only [hr, Option.bind_eq_bind, Option.some_bind, hrecv]
  simp only [Option.isSome_iff_ne_none]
  by_cases h1 : b.err ≠ none ∨ r.status ≠ .ok
  · rw [if_pos h1]
    exact ⟨_, _, rfl, iff_of_false (by simp) fun ⟨he, hok, _⟩ => h1.elim (· he) (· hok)⟩
  rw [if_neg h1]
  by_cases h2 : pl.recvErrResult failure ≠ none
  · rw [if_pos h2]
    exact ⟨_, _, rfl, iff_of_false (by simp) fun ⟨_, _, hrv, _⟩ => h2 hrv⟩
  rw [if_neg h2]
  by_cases h3 : sendErr ≠ none
  · rw [if_pos h3]
    exact ⟨_, _, rfl, iff_of_false (by simp) fun ⟨_, _, _, hs⟩ => h3 hs⟩
  rw [if_neg h3]
  simp only [not_or, not_not] at h1 h2 h3
  exact ⟨_, _, rfl, by simp [h1, h2, h3]⟩

theorem readAcknowledgements_fsm {i k : Nat} {sendErr failure : Option Error} {b b' : AppendFSM}
    {pl pl' : Pipeline σ} (h : readAcknowledgements i k sendErr failure b pl = some (b', pl')) :
    ∃ e, b' = { b with err := e, state := .error } ∨ b' = { b with err := e, state := .finished } := by
  unfold readAcknowledgements at h
  obtain ⟨r, -, h⟩ := Option.bind_eq_some.mp h
  dsimp only at h
  split_ifs at h <;> cases h <;> first | exact ⟨_, .inl rfl⟩ | exact ⟨_, .inr rfl⟩

end Gazette.Broker
