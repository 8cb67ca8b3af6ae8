import Gazette.Broker.Equations

/-! The stream loop of `appendFSM.run`: what one `onStreamContent` does with each kind of
delivery, and what the loop does with a whole stream of them. -/

namespace Gazette.Broker

variable {σ : Type} (C : Collaborators σ)

/-! ### Calls on the send side -/

/-- `pl'` is `pl` after send-side calls of append `i`: scatters with no header and no journal,
and `sendErr()`s. -/
structure SendCalls (i : Nat) (st : AppendState) (pl pl' : Pipeline σ) (new : List Call) :
    Prop where
  steps : Pipeline.Steps C pl new pl'
  header : pl'.header = pl.header
  readBarrier : pl'.readBarrier = pl.readBarrier
  closed : pl'.closed = pl.closed
  recvLatch : pl'.recvLatch = pl.recvLatch
  log : pl'.log = new ++ pl.log
  calls : ∀ c ∈ new, c.run = i ∧ c.state = st ∧
    ((∃ q, c.op = .scatter q ∧ q.header = none ∧ q.journal = "") ∨ ∃ e, c.op = .sendErr e)

def Unacked (new : List Call) : Prop := ∀ c ∈ new, ∀ q, c.op = .scatter q → q.acknowledge = false

namespace SendCalls

variable {C} {i : Nat} {st : AppendState} {pl pl' pl'' : Pipeline σ} {new new' : List Call}

theorem refl (pl : Pipeline σ) : SendCalls C i st pl pl [] :=
  ⟨.nil pl, rfl, rfl, rfl, rfl, rfl, by simp⟩

theorem trans (h : SendCalls C i st pl pl' new) (h' : SendCalls C i st pl' pl'' new') :
    SendCalls C i st pl pl'' (new' ++ new) :=
  ⟨h.steps.trans h'.steps, h'.header.trans h.header, h'.readBarrier.trans h.readBarrier,
    h'.closed.trans h.closed,
    h'.recvLatch.trans h.recvLatch, by rw [h'.log, h.log, List.append_assoc],
    fun c hc => (List.mem_append.mp hc).elim (h'.calls c) (h.calls c)⟩

theorem scatter (pl : Pipeline σ) (q : ReplicateRequest) (hq : q.header = none)
    (hj : q.journal = "") : SendCalls C i st pl (pl.scatter C i st q) [⟨i, st, .scatter q⟩] :=
  ⟨.single (.scatter pl i st q), rfl, rfl, rfl, rfl, rfl, by simp [hq, hj]⟩

theorem sendErr (pl : Pipeline σ) (f : Option Error) :
    SendCalls C i st pl (pl.sendErr i st f) [⟨i, st, .sendErr (pl.sendErrResult f)⟩] :=
  ⟨.single (.sendErr pl i st f), rfl, rfl, rfl, rfl, rfl, by simp⟩

end SendCalls

/-- The calls of one `onStreamContent`: a scatter of content only on a journal that may be
written. -/
structure StreamCalls (i : Nat) (r : Resolution) (pl pl' : Pipeline σ) (new : List Call) :
    Prop where
  send : SendCalls C i .streamContent pl pl' new
  writable : ∀ c ∈ new, ∀ q, c.op = .scatter q → q.content ≠ [] →
    r.journalSpec.flags.mayWrite = true

namespace StreamCalls

variable {C} {i : Nat} {r : Resolution} {pl pl' pl'' : Pipeline σ} {new new' : List Call}

theorem refl (pl : Pipeline σ) : StreamCalls C i r pl pl [] :=
  ⟨SendCalls.refl pl, by simp⟩

theorem trans (h : StreamCalls C i r pl pl' new) (h' : StreamCalls C i r pl' pl'' new') :
    StreamCalls C i r pl pl'' (new' ++ new) :=
  ⟨h.send.trans h'.send, fun c hc => (List.mem_append.mp hc).elim (h'.writable c) (h.writable c)⟩

theorem scatter (pl : Pipeline σ) (q : ReplicateRequest) (hq : q.header = none)
    (hj : q.journal = "") (hw : q.content ≠ [] → r.journalSpec.flags.mayWrite = true) :
    StreamCalls C i r pl (pl.scatter C i .streamContent q) [⟨i, .streamContent, .scatter q⟩] :=
  ⟨SendCalls.scatter pl q hq hj, by simpa using hw⟩

theorem sendErr (pl : Pipeline σ) (f : Option Error) :
    StreamCalls C i r pl (pl.sendErr i .streamContent f)
      [⟨i, .streamContent, .sendErr (pl.sendErrResult f)⟩] :=
  ⟨SendCalls.sendErr pl f, by simp⟩

end StreamCalls

/-! ### One delivery -/

theorem beginClientFragment_spec (i : Nat) (r : Resolution) (b : AppendFSM) (pl : Pipeline σ) :
    (∃ cf, (beginClientFragment C i r b pl).1 =
      { b with clientFragment := some cf, clientSummer := [] }) ∧
    (beginClientFragment C i r b pl).2.sendLatch = pl.sendLatch ∧
    ∃ new, StreamCalls C i r pl (beginClientFragment C i r b pl).2 new ∧ Unacked new := by
  unfold beginClientFragment
  dsimp only
  split_ifs
  · refine ⟨⟨_, rfl⟩, rfl, _, StreamCalls.scatter pl _ rfl rfl (fun h => absurd rfl h), ?_⟩
    simp [Unacked]
  · exact ⟨⟨_, rfl⟩, rfl, [], StreamCalls.refl pl, by simp [Unacked]⟩

/-- Whether `finishStream` commits: a clean EOF, `sendErr()` nil and the status still OK. -/
def commits (err : Option Error) (sent : Option Error) (r : Resolution) : Prop :=
  err = some .eof ∧ sent = none ∧ r.status = .ok

instance (err sent : Option Error) (r : Resolution) : Decidable (commits err sent r) :=
  inferInstanceAs (Decidable (_ ∧ _))

theorem finishStream_spec {i : Nat} {err failure : Option Error} {b : AppendFSM}
    {pl : Pipeline σ} {cf : Fragment} {r : Resolution} (r₀ : Resolution)
    (hcf : b.clientFragment = some cf)
    (hr : b.resolved = some r)
    (hc : commits err (pl.sendErrResult failure) r → b.clientCommit = true) :
    ∃ (q : ReplicateRequest) (rest : List Call) (pl₁ : Pipeline σ),
      finishStream C i err failure b pl =
        some ({ b with
            clientFragment := some { cf with sum := C.sha1 b.clientSummer }
            err := if commits err (pl.sendErrResult failure) r then b.err
              else err.map (.withMessage "append stream")
            state := .readAcknowledgements },
          pl₁.scatter C i .streamContent q) ∧
      StreamCalls C i r₀ pl (pl₁.scatter C i .streamContent q)
        (⟨i, .streamContent, .scatter q⟩ :: rest) ∧ Unacked rest ∧
      q.acknowledge = true ∧ pl₁.spool = pl.spool ∧
      q.proposal = some (if commits err (pl.sendErrResult failure) r then C.next pl.spool
        else C.fragment pl.spool) ∧
      pl₁.sendLatch = if err = some .eof then pl.sendErrResult failure else pl.sendLatch := by
  -- the calls before the proposal: `sendErr()` after an EOF only
  obtain ⟨pl₁, rest, hpl₁, hcalls, hun, hspool, hlatch⟩ : ∃ pl₁ rest,
      (if err = some .eof then pl.sendErr i .streamContent failure else pl) = pl₁ ∧
      StreamCalls C i r₀ pl pl₁ rest ∧ Unacked rest ∧ pl₁.spool = pl.spool ∧
      pl₁.sendLatch = if err = some .eof then pl.sendErrResult failure else pl.sendLatch := by
    split_ifs
    · exact ⟨_, _, rfl, StreamCalls.sendErr pl failure, by simp [Unacked], rfl, rfl⟩
    · exact ⟨_, _, rfl, StreamCalls.refl pl, by simp [Unacked], rfl, rfl⟩
  refine ⟨{ proposal := some (if commits err (pl.sendErrResult failure) r then C.next pl.spool
      else C.fragment pl.spool), acknowledge := true }, rest, pl₁, ?_,
    hcalls.trans (StreamCalls.scatter _ _ rfl rfl (fun h => absurd rfl h)), hun, rfl, hspool,
    rfl, hlatch⟩
  unfold finishStream
  simp only [hcf, hr, Option.bind_eq_bind, Option.some_bind, hpl₁, ← hspool]
  by_cases hcm : commits err (pl.sendErrResult failure) r
  · simp only [commits] at hcm
    simp [hcm, hc hcm, commits]
  · simp only [commits] at hcm
    simp [hcm, commits]

/-- Calls that stay in stateStreamContent: only the client's stream fields change. -/
structure Stays (i : Nat) (r : Resolution) (b b' : AppendFSM) (pl pl' : Pipeline σ) :
    Prop where
  fsm : ∃ cc cf sm, b' = { b with
    clientCommit := cc
    clientFragment := cf
    clientSummer := sm }
  calls : ∃ new, StreamCalls C i r pl pl' new ∧ Unacked new

namespace Stays

variable {C}

theorem refl (i : Nat) (r : Resolution) (b : AppendFSM) (pl : Pipeline σ) :
    Stays C i r b b pl pl :=
  ⟨⟨_, _, _, rfl⟩, [], StreamCalls.refl pl, by simp [Unacked]⟩

theorem trans {i : Nat} {r : Resolution} {b b' b'' : AppendFSM} {pl pl' pl'' : Pipeline σ}
    (h : Stays C i r b b' pl pl') (h' : Stays C i r b' b'' pl' pl'') : Stays C i r b b'' pl pl'' := by
  obtain ⟨⟨cc, cf, sm, rfl⟩, new, hcalls, hun⟩ := h
  obtain ⟨⟨cc', cf', sm', rfl⟩, new', hcalls', hun'⟩ := h'
  refine ⟨⟨cc', cf', sm', rfl⟩, new' ++ new, hcalls.trans hcalls', fun c hc => ?_⟩
  exact (List.mem_append.mp hc).elim (hun' c) (hun c)

theorem state {i : Nat} {r : Resolution} {b b' : AppendFSM} {pl pl' : Pipeline σ}
    (h : Stays C i r b b' pl pl') : b'.state = b.state := by
  obtain ⟨⟨_, _, _, rfl⟩, -⟩ := h; rfl

end Stays

/-- A call that leaves stateStreamContent: its last call scatters its one acknowledged
proposal, the commit proposal exactly when `commit` holds. -/
structure Leaves (i : Nat) (r : Resolution) (commit : Prop) (b b' : AppendFSM) (pl pl' : Pipeline σ) : Prop where
  fsm : ∃ rs cc cf sm e, b' = { b with
    resolved := rs
    clientCommit := cc
    clientFragment := some cf
    clientSummer := sm
    err := e
    state := .readAcknowledgements }
  resolved : b'.resolved ≠ none
  final : ∃ q rest σ₀, StreamCalls C i r pl pl' (⟨i, .streamContent, .scatter q⟩ :: rest) ∧
    Unacked rest ∧ q.acknowledge = true ∧ pl'.spool = C.apply σ₀ q ∧
    (commit → q.proposal = some (C.next σ₀)) ∧ (¬commit → q.proposal = some (C.fragment σ₀))
  committed : commit → b'.err = b.err ∧ b'.resolved = b.resolved
  rolledBack : ¬commit →
    b'.err ≠ none ∨ (∃ r', b'.resolved = some r' ∧ r'.status ≠ .ok) ∨ pl'.sendLatch ≠ none

theorem finishStream_leaves {i : Nat} {r r' : Resolution} {err failure : Option Error}
    {b₀ b : AppendFSM} {pl₀ pl : Pipeline σ} {new₀ : List Call} (commit : Prop) {cf : Fragment}
    (hb : ∃ rs cc sm, b = { b₀ with
      resolved := rs
      clientCommit := cc
      clientFragment := some cf
      clientSummer := sm })
    (hr : b.resolved = some r') (hcalls : StreamCalls C i r pl₀ pl new₀) (hun : Unacked new₀)
    (hcommit : commits err (pl.sendErrResult failure) r' ↔ commit)
    (hc : commit → b.clientCommit = true) (hkeep : commit → b.err = b₀.err ∧ b.resolved = b₀.resolved)
    (hroll : ¬commit → err ≠ none ∨ r'.status ≠ .ok ∨ pl.sendLatch ≠ none) :
    ∃ b' pl', finishStream C i err failure b pl = some (b', pl') ∧
      Leaves C i r commit b₀ b' pl₀ pl' := by
  obtain ⟨rs, cc, sm, rfl⟩ := hb
  obtain ⟨q, rest, pl₁, heq, hq, hrest, hack, hspool, hprop, hlatch⟩ :=
    finishStream_spec C r rfl hr (fun h => hc (hcommit.mp h))
  refine ⟨_, _, heq, ⟨⟨_, _, _, _, _, rfl⟩, by simp only at hr ⊢; simp [hr],
    ⟨q, rest ++ new₀, pl.spool, by simpa using hcalls.trans hq, fun c hc q hq => ?_, hack,
      by rw [Pipeline.scatter_spool, hspool], ?_⟩, ?_, ?_⟩⟩
  · rcases List.mem_append.mp hc with hc | hc
    exacts [hrest c hc q hq, hun c hc q hq]
  · exact ⟨fun h => by simp [hprop, hspool, hcommit.mpr h],
      fun h => by simp [hprop, hspool, mt hcommit.mp h]⟩
  · intro h
    simpa [hcommit.mpr h] using (hkeep h).2
  · intro h
    simp only [hcommit, h, if_false]
    rcases hroll h with he | hs | hl
    · exact .inl (by simpa using he)
    · exact .inr (.inl ⟨r', hr, hs⟩)
    · refine .inr (.inr ?_)
      simp only [Pipeline.scatter_sendLatch, hlatch]
      obtain ⟨x, hx⟩ := Option.ne_none_iff_exists'.mp hl
      split_ifs <;> simp [Pipeline.sendErrResult, hx]

theorem streamChunk_content {i : Nat} {r : Resolution} {d : Except Error AppendRequest}
    {failure : Option Error} {b₀ : AppendFSM} {pl₀ pl : Pipeline σ} {new₀ : List Call}
    {cf : Fragment} {sm : List UInt8} (hcalls : StreamCalls C i r pl₀ pl new₀)
    (hun : Unacked new₀) (hlatch : pl.sendLatch = pl₀.sendLatch)
    (hcc : b₀.clientCommit = false) (he : chunkError C d = none) (hc : chunkContent d ≠ [])
    (hw : r.journalSpec.flags.mayWrite = true) (hs : pl₀.sendErrResult failure = none) :
    ∃ b' pl', streamChunk C i r d failure
        { b₀ with clientFragment := some cf, clientSummer := sm } pl = some (b', pl') ∧
      Stays C i r b₀ b' pl₀ pl' ∧ b'.clientFragment ≠ none ∧ b'.clientCommit = false ∧
      pl'.sendLatch = none := by
  have hs' : pl.sendErrResult failure = none := (Pipeline.sendErrResult_congr hlatch _).trans hs
  unfold streamChunk
  simp [he, hcc, hw, hs', hc]
  refine ⟨_, _, ⟨rfl, rfl⟩, ⟨⟨_, _, _, rfl⟩, _, hcalls.trans
    ((StreamCalls.scatter pl _ rfl rfl fun _ => hw).trans (StreamCalls.sendErr _ failure)),
    by simpa [Unacked] using hun⟩, by simp, rfl, ?_⟩
  simpa [Pipeline.sendErrResult] using hs'

theorem streamChunk_empty {i : Nat} {r : Resolution} {d : Except Error AppendRequest}
    {failure : Option Error} {b₀ : AppendFSM} {pl₀ pl : Pipeline σ} {new₀ : List Call}
    {cf : Fragment} {sm : List UInt8} (hcalls : StreamCalls C i r pl₀ pl new₀)
    (hun : Unacked new₀) (hlatch : pl.sendLatch = pl₀.sendLatch)
    (hcc : b₀.clientCommit = false) (he : chunkError C d = none) (hc : chunkContent d = []) :
    ∃ b' pl', streamChunk C i r d failure
        { b₀ with clientFragment := some cf, clientSummer := sm } pl = some (b', pl') ∧
      Stays C i r b₀ b' pl₀ pl' ∧ b'.clientFragment ≠ none ∧ b'.clientCommit = true ∧
      pl'.sendLatch = pl₀.sendLatch := by
  unfold streamChunk
  simp [he, hcc, hc]
  exact ⟨_, _, ⟨rfl, rfl⟩, ⟨⟨_, _, _, rfl⟩, _, hcalls, hun⟩, by simp, rfl, hlatch⟩

theorem streamChunk_leaves {i : Nat} {r : Resolution} {d : Except Error AppendRequest}
    {failure : Option Error} {b₀ : AppendFSM} {pl₀ pl : Pipeline σ} {new₀ : List Call}
    {cf : Fragment} {sm : List UInt8} (hr : b₀.resolved = some r) (hok : r.status = .ok)
    (hcalls : StreamCalls C i r pl₀ pl new₀) (hun : Unacked new₀)
    (hlatch : pl.sendLatch = pl₀.sendLatch)
    (hnc : ¬(b₀.clientCommit = false ∧ chunkError C d = none ∧ chunkContent d ≠ [] ∧
      r.journalSpec.flags.mayWrite = true ∧ pl₀.sendErrResult failure = none))
    (hne : ¬(b₀.clientCommit = false ∧ chunkError C d = none ∧ chunkContent d = [])) :
    ∃ b' pl', streamChunk C i r d failure
        { b₀ with clientFragment := some cf, clientSummer := sm } pl = some (b', pl') ∧
      Leaves C i r (b₀.clientCommit = true ∧ chunkError C d = some .eof ∧
        pl₀.sendErrResult failure = none) b₀ b' pl₀ pl' := by
  have hs := Pipeline.sendErrResult_congr hlatch failure
  unfold streamChunk
  dsimp only
  simp only [Option.bind_eq_bind, Option.some_bind]
  by_cases h1 : chunkError C d = some .eof ∧ (!b₀.clientCommit) = true
  · -- an EOF before the commit chunk
    rw [if_pos h1]
    have hcc : b₀.clientCommit = false := by simpa using h1.2
    exact finishStream_leaves C _ ⟨_, _, _, rfl⟩ hr hcalls hun (by simp [commits, hcc])
      (fun h => h.1) (fun _ => ⟨rfl, rfl⟩) (fun _ => .inl (by simp))
  rw [if_neg h1]
  by_cases h2 : chunkError C d = none ∧ b₀.clientCommit = true
  · -- a chunk after the commit chunk
    rw [if_pos h2]
    exact finishStream_leaves C _ ⟨_, _, _, rfl⟩ hr hcalls hun
      (by simp [commits, h2.1, errExpectedEOF]) (fun h => h.1) (fun _ => ⟨rfl, rfl⟩)
      (fun _ => .inl (by simp))
  rw [if_neg h2]
  by_cases h3 : chunkError C d = none ∧ chunkContent d = []
  · exact absurd ⟨by simpa [h3.1] using h2, h3.1, h3.2⟩ hne
  rw [if_neg h3]
  by_cases h4 : chunkError C d = none ∧ (!r.journalSpec.flags.mayWrite) = true
  · -- content on a journal that may not be written
    rw [if_pos h4]
    exact finishStream_leaves C _ ⟨_, _, _, rfl⟩ rfl hcalls hun (by simp [commits, h4.1])
      (fun h => h.1) (fun h => absurd h.2.1 (by simp [h4.1])) (fun _ => .inr (.inl (by simp)))
  rw [if_neg h4]
  by_cases h5 : chunkError C d = none
  · rw [if_pos h5]
    by_cases h6 : pl.sendErrResult failure = none
    · exact absurd ⟨by simpa [h5] using h2, h5, by simpa [h5] using h3, by simpa [h5] using h4,
        hs ▸ h6⟩ hnc
    -- content forwarded while sendErr() is not nil
    rw [if_neg h6]
    have hw : r.journalSpec.flags.mayWrite = true := by simpa [h5] using h4
    exact finishStream_leaves C _ ⟨_, _, _, rfl⟩ hr
      (hcalls.trans ((StreamCalls.scatter pl _ rfl rfl fun _ => hw).trans
        (StreamCalls.sendErr _ failure))) (by simpa [Unacked] using hun) (by simp [commits, h5])
      (fun h => h.1) (fun h => absurd h.2.1 (by simp [h5]))
      (fun _ => .inr (.inr (by simpa [Pipeline.sendErrResult] using h6)))
  · -- any other error
    rw [if_neg h5]
    refine finishStream_leaves C _ ⟨_, _, _, rfl⟩ hr hcalls hun ?_ (fun h => h.1)
      (fun _ => ⟨rfl, rfl⟩) (fun _ => .inl h5)
    simp only [commits, hs, hok, and_true]
    constructor
    · rintro ⟨heof, hsent⟩
      exact ⟨by simpa [heof] using h1, heof, hsent⟩
    · exact fun h => h.2

theorem Leaves.of_stays {i : Nat} {r : Resolution} {commit : Prop} {b₀ b b' : AppendFSM}
    {pl₀ pl pl' : Pipeline σ} (h : Stays C i r b₀ b pl₀ pl) (h' : Leaves C i r commit b b' pl pl') :
    Leaves C i r commit b₀ b' pl₀ pl' := by
  obtain ⟨⟨cc, cf, sm, rfl⟩, new, hcalls, hun⟩ := h
  obtain ⟨⟨rs, cc', cf', sm', e, rfl⟩, hres, ⟨q, rest, σ₀, hq, hrest, hfinal⟩, hc, hrb⟩ := h'
  refine ⟨⟨rs, cc', cf', sm', e, rfl⟩, hres, ⟨q, rest ++ new, σ₀, ?_, fun c hc => ?_, hfinal⟩,
    hc, hrb⟩
  · simpa using hcalls.trans hq
  · exact (List.mem_append.mp hc).elim (hrest c) (hun c)

theorem Leaves.congr {i : Nat} {r : Resolution} {commit commit' : Prop} {b b' : AppendFSM}
    {pl pl' : Pipeline σ} (h : Leaves C i r commit b b' pl pl') (hc : commit ↔ commit') :
    Leaves C i r commit' b b' pl pl' := by
  obtain ⟨hfsm, hres, ⟨q, rest, σ₀, hq, hrest, hack, hspool, hnext, hfrag⟩, hcm, hrb⟩ := h
  exact ⟨hfsm, hres, ⟨q, rest, σ₀, hq, hrest, hack, hspool, hnext ∘ hc.mpr, hfrag ∘ mt hc.mp⟩,
    hcm ∘ hc.mpr, hrb ∘ mt hc.mp⟩

theorem onStreamContent_eq (i : Nat) (d : Except Error AppendRequest) (failure : Option Error)
    {r : Resolution} {b : AppendFSM} (pl : Pipeline σ) (hr : b.resolved = some r) :
    ∃ cf sm pl₁ new, onStreamContent C i d failure b pl =
        streamChunk C i r d failure { b with clientFragment := some cf, clientSummer := sm } pl₁ ∧
      StreamCalls C i r pl pl₁ new ∧ Unacked new ∧ pl₁.sendLatch = pl.sendLatch := by
  unfold onStreamContent
  simp only [hr, Option.bind_eq_bind, Option.some_bind]
  split_ifs with hcf
  · obtain ⟨⟨cf, hb⟩, hlatch, new, hcalls, hun⟩ := beginClientFragment_spec C i r b pl
    exact ⟨cf, [], _, new, by rw [hb, hr], hcalls, hun, hlatch⟩
  · obtain ⟨cf, hcf⟩ := Option.ne_none_iff_exists'.mp hcf
    refine ⟨cf, b.clientSummer, pl, [], ?_, StreamCalls.refl pl, by simp [Unacked], rfl⟩
    rw [← hcf, ← hr]

/-- What one `onStreamContent` does: forward a content chunk and stay, take the commit chunk
and stay, or leave, committing exactly when the stream's contract says. -/
theorem onStreamContent_cases (i : Nat) (d : Except Error AppendRequest) (failure : Option Error)
    {r : Resolution} {b : AppendFSM} (pl : Pipeline σ) (hr : b.resolved = some r)
    (hok : r.status = .ok) :
    ∃ b' pl', onStreamContent C i d failure b pl = some (b', pl') ∧
      ((b.clientCommit = false ∧ chunkError C d = none ∧ chunkContent d ≠ [] ∧
          r.journalSpec.flags.mayWrite = true ∧ pl.sendErrResult failure = none ∧
          Stays C i r b b' pl pl' ∧ b'.clientFragment ≠ none ∧ b'.clientCommit = false ∧
          pl'.sendLatch = none) ∨
        (b.clientCommit = false ∧ chunkError C d = none ∧ chunkContent d = [] ∧
          Stays C i r b b' pl pl' ∧ b'.clientFragment ≠ none ∧ b'.clientCommit = true ∧
          pl'.sendLatch = pl.sendLatch) ∨
        Leaves C i r (b.clientCommit = true ∧ chunkError C d = some .eof ∧
          pl.sendErrResult failure = none) b b' pl pl') := by
  obtain ⟨cf, sm, pl₁, new, heq, hcalls, hun, hlatch⟩ := onStreamContent_eq C i d failure pl hr
  rw [heq]
  by_cases hc : b.clientCommit = false ∧ chunkError C d = none ∧ chunkContent d ≠ [] ∧
      r.journalSpec.flags.mayWrite = true ∧ pl.sendErrResult failure = none
  · obtain ⟨b', pl', hstep, hrest⟩ :=
      streamChunk_content C hcalls hun hlatch hc.1 hc.2.1 hc.2.2.1 hc.2.2.2.1 hc.2.2.2.2
    exact ⟨b', pl', hstep, .inl ⟨hc.1, hc.2.1, hc.2.2.1, hc.2.2.2.1, hc.2.2.2.2, hrest⟩⟩
  by_cases he : b.clientCommit = false ∧ chunkError C d = none ∧ chunkContent d = []
  · obtain ⟨b', pl', hstep, hrest⟩ := streamChunk_empty C hcalls hun hlatch he.1 he.2.1 he.2.2
    exact ⟨b', pl', hstep, .inr (.inl ⟨he.1, he.2.1, he.2.2, hrest⟩)⟩
  · obtain ⟨b', pl', hstep, hleaves⟩ := streamChunk_leaves C hr hok hcalls hun hlatch hc he
    exact ⟨b', pl', hstep, .inr (.inr hleaves)⟩

theorem onStreamContent_frame {i : Nat} {d : Except Error AppendRequest} {failure : Option Error}
    {r : Resolution} {b b' : AppendFSM} {pl pl' : Pipeline σ} (hr : b.resolved = some r)
    (hok : r.status = .ok) (h : onStreamContent C i d failure b pl = some (b', pl')) :
    (∃ rs cc cf sm e st, b' = { b with
      resolved := rs
      clientCommit := cc
      clientFragment := cf
      clientSummer := sm
      err := e
      state := st }) ∧ ∃ new, StreamCalls C i r pl pl' new := by
  obtain ⟨b'', pl'', heq, hcase⟩ := onStreamContent_cases C i d failure pl hr hok
  rw [h, Option.some.injEq, Prod.mk.injEq] at heq
  obtain ⟨rfl, rfl⟩ := heq
  rcases hcase with ⟨-, -, -, -, -, ⟨⟨cc, cf, sm, rfl⟩, new, hc, -⟩, -⟩ |
    ⟨-, -, -, ⟨⟨cc, cf, sm, rfl⟩, new, hc, -⟩, -⟩ | ⟨⟨rs, cc, cf, sm, e, rfl⟩, -, ⟨q, rest, -, hc, -⟩, -⟩
  · exact ⟨⟨_, _, _, _, _, _, rfl⟩, new, hc⟩
  · exact ⟨⟨_, _, _, _, _, _, rfl⟩, new, hc⟩
  · exact ⟨⟨_, _, _, _, _, _, rfl⟩, _, hc⟩

/-! ### The stream loop -/

/-- One result of the chunk receive loop, with the send error a peer may raise before the next
`sendErr()`. -/
structure Delivery where
  chunk : Except Error AppendRequest
  failure : Option Error

/-- A valid content chunk: it passes `Validate()`, names no journal, and has content. -/
def ContentChunk (d : Delivery) : Prop :=
  ∃ req, d.chunk = .ok req ∧ C.validate req = none ∧ req.journal = "" ∧ req.content ≠ []

/-- A valid chunk with empty content: the client's commit chunk. -/
def EmptyChunk (d : Delivery) : Prop :=
  ∃ req, d.chunk = .ok req ∧ C.validate req = none ∧ req.journal = "" ∧ req.content = []

theorem contentChunk_iff (d : Delivery) :
    ContentChunk C d ↔ chunkError C d.chunk = none ∧ chunkContent d.chunk ≠ [] := by
  obtain ⟨e | req, f⟩ := d
  · simp [ContentChunk, chunkError, chunkContent]
  · cases hv : C.validate req <;> simp [ContentChunk, chunkError, chunkContent, hv]

theorem emptyChunk_iff (d : Delivery) :
    EmptyChunk C d ↔ chunkError C d.chunk = none ∧ chunkContent d.chunk = [] := by
  obtain ⟨e | req, f⟩ := d
  · simp [EmptyChunk, chunkError, chunkContent]
  · cases hv : C.validate req <;> simp [EmptyChunk, chunkError, chunkContent, hv]

theorem chunkError_eq_eof (hv : ∀ req, C.validate req ≠ some .eof)
    (d : Except Error AppendRequest) : chunkError C d = some .eof ↔ d = .error .eof := by
  cases d with
  | error e => simp [chunkError]
  | ok req =>
    have := hv req
    cases h : C.validate req <;> simp_all [chunkError, errExpectedContentChunk]

theorem not_contentChunk_of_empty {d : Delivery} (h : EmptyChunk C d) : ¬ContentChunk C d := by
  rw [contentChunk_iff]; rw [emptyChunk_iff] at h; exact fun h' => h'.2 h.2

def CleanContent (ds : List Delivery) : Prop := ∀ d ∈ ds, ContentChunk C d ∧ d.failure = none

/-- The deliveries of a stream that commits, in the words of its contract. -/
def CommitsStream (r : Resolution) (latch : Option Error) (ds : List Delivery) : Prop :=
  ∃ cs e eof, ds = cs ++ [e, eof] ∧ (∀ d ∈ cs, ContentChunk C d) ∧ EmptyChunk C e ∧
    eof.chunk = .error .eof ∧ eof.failure = none ∧
    (cs ≠ [] → r.journalSpec.flags.mayWrite = true) ∧ latch = none

/-- The stream so far, while the FSM stays in stateStreamContent. -/
structure StreamInv (i : Nat) (r : Resolution) (b₀ b : AppendFSM) (pl₀ pl : Pipeline σ)
    (consumed : List Delivery) : Prop where
  stays : Stays C i r b₀ b pl₀ pl
  latch : pl.sendLatch = pl₀.sendLatch
  chunks : (b.clientCommit = false ∧ CleanContent C consumed) ∨
    (b.clientCommit = true ∧
      ∃ cs e, consumed = cs ++ [e] ∧ CleanContent C cs ∧ EmptyChunk C e)
  written : ∀ d ∈ consumed, ContentChunk C d → r.journalSpec.flags.mayWrite = true

theorem StreamInv.start (i : Nat) (r : Resolution) {b₀ : AppendFSM} (pl₀ : Pipeline σ)
    (hcc : b₀.clientCommit = false) : StreamInv C i r b₀ b₀ pl₀ pl₀ [] :=
  ⟨Stays.refl i r b₀ pl₀, rfl, .inl ⟨hcc, by simp [CleanContent]⟩, by simp⟩

theorem StreamInv.commits_iff (hv : ∀ req, C.validate req ≠ some .eof) {i : Nat}
    {r : Resolution} {b₀ b : AppendFSM} {pl₀ pl : Pipeline σ} {pre : List Delivery}
    (h : StreamInv C i r b₀ b pl₀ pl pre) (d : Delivery) :
    (b.clientCommit = true ∧ chunkError C d.chunk = some .eof ∧
      pl.sendErrResult d.failure = none) ↔ CommitsStream C r pl₀.sendLatch (pre ++ [d]) := by
  simp only [Pipeline.sendErrResult, Option.or_eq_none, h.latch, chunkError_eq_eof C hv]
  constructor
  · rintro ⟨hcc, heof, hl, hf⟩
    obtain ⟨hcc', -⟩ | ⟨-, cs, e, rfl, hcs, he⟩ := h.chunks
    · simp [hcc] at hcc'
    refine ⟨cs, e, d, by simp, fun x hx => (hcs x hx).1, he, heof, hf, fun hne => ?_, hl⟩
    obtain ⟨x, hx⟩ := List.exists_mem_of_ne_nil cs hne
    exact h.written x (by simp [hx]) (hcs x hx).1
  · rintro ⟨cs, e, eof, hds, -, he, heof, hf, -, hl⟩
    obtain ⟨rfl, rfl⟩ : pre = cs ++ [e] ∧ d = eof := by
      simpa using List.append_inj' (hds.trans (List.append_cons cs e [eof])) rfl
    obtain ⟨-, hcs⟩ | ⟨hcc, -⟩ := h.chunks
    · exact absurd (hcs e (by simp)).1 (not_contentChunk_of_empty C he)
    exact ⟨hcc, heof, hl, hf⟩

/-- One delivery of the stream loop keeps the invariant, or leaves as the contract says. -/
theorem StreamInv.step (hv : ∀ req, C.validate req ≠ some .eof) {i : Nat} {r : Resolution}
    {b₀ b : AppendFSM} {pl₀ pl : Pipeline σ} {pre : List Delivery}
    (hr : b₀.resolved = some r) (hok : r.status = .ok)
    (h : StreamInv C i r b₀ b pl₀ pl pre) (d : Delivery) :
    ∃ b' pl', onStreamContent C i d.chunk d.failure b pl = some (b', pl') ∧
      ((b'.state = b₀.state ∧ StreamInv C i r b₀ b' pl₀ pl' (pre ++ [d]) ∧
          ∃ req, d.chunk = .ok req) ∨
        Leaves C i r (CommitsStream C r pl₀.sendLatch (pre ++ [d])) b₀ b' pl₀ pl') := by
  obtain ⟨cc, cf₀, sm₀, hb⟩ := h.stays.fsm
  have hrb : b.resolved = some r := by rw [hb]; exact hr
  have hok' (he : chunkError C d.chunk = none) : ∃ req, d.chunk = .ok req := by
    cases hd : d.chunk <;> simp_all [chunkError]
  obtain ⟨b', pl', hstep, ⟨hcc, he, hne, hw, hs, hstays, -, hcc', hl'⟩ |
      ⟨hcc, he, hemp, hstays, -, hcc', hl'⟩ | hleaves⟩ :=
    onStreamContent_cases C i d.chunk d.failure pl hrb hok
  · -- a content chunk, forwarded
    have hfs : pl.sendLatch = none ∧ d.failure = none := Option.or_eq_none.mp hs
    obtain ⟨-, hpre⟩ | ⟨hcc1, -⟩ := h.chunks
    · refine ⟨b', pl', hstep, .inl ⟨hstays.state.trans h.stays.state,
        ⟨h.stays.trans hstays, by rw [hl', ← h.latch, hfs.1], .inl ⟨hcc', ?_⟩, ?_⟩, hok' he⟩⟩
      · simp only [CleanContent, List.mem_append, List.mem_singleton]
        rintro x (hx | rfl)
        exacts [hpre x hx, ⟨(contentChunk_iff C x).mpr ⟨he, hne⟩, hfs.2⟩]
      · simp only [List.mem_append, List.mem_singleton]
        rintro x (hx | rfl)
        exacts [h.written x hx, fun _ => hw]
    · simp [hcc] at hcc1
  · -- the empty chunk: the client will commit
    have hemp' : EmptyChunk C d := (emptyChunk_iff C d).mpr ⟨he, hemp⟩
    obtain ⟨-, hpre⟩ | ⟨hcc1, -⟩ := h.chunks
    · refine ⟨b', pl', hstep, .inl ⟨hstays.state.trans h.stays.state, ⟨h.stays.trans hstays,
        hl'.trans h.latch, .inr ⟨hcc', pre, d, rfl, hpre, hemp'⟩, ?_⟩, hok' he⟩⟩
      simp only [List.mem_append, List.mem_singleton]
      rintro x (hx | rfl)
      exacts [h.written x hx, fun hx => absurd hx (not_contentChunk_of_empty C hemp')]
    · simp [hcc] at hcc1
  · -- any other delivery ends the stream
    exact ⟨b', pl', hstep, .inr ((hleaves.congr C (h.commits_iff C hv d)).of_stays C h.stays)⟩

/-- The loop of `appendFSM.run` in stateStreamContent; the deliveries after it leaves are
returned, and `none` is a panic. -/
def streamLoop (i : Nat) :
    List Delivery → AppendFSM → Pipeline σ → Option (AppendFSM × Pipeline σ × List Delivery)
  | [], b, pl => some (b, pl, [])
  | d :: ds, b, pl =>
    (onStreamContent C i d.chunk d.failure b pl).bind fun s =>
      if s.1.state = .streamContent then streamLoop i ds s.1 s.2 else some (s.1, s.2, ds)

/-- `onReadAcknowledgements` of an append with no other pipelined before it. -/
def acknowledge (i : Nat) (sendFailure recvFailure : Option Error) (b : AppendFSM)
    (pl : Pipeline σ) (ch : List (Option Nat)) :
    Option (AppendFSM × Pipeline σ × List (Option Nat)) := do
  let (b, pl', ch) ← releaseSendSide i sendFailure b pl ch
  let (b, pl') ← readAcknowledgements i (pl.readBarrier + 1) (pl.sendErrResult sendFailure)
    recvFailure b pl'
  some (b, pl', ch)

theorem Leaves.state {i : Nat} {r : Resolution} {commit : Prop} {b b' : AppendFSM}
    {pl pl' : Pipeline σ} (h : Leaves C i r commit b b' pl pl') :
    b'.state = .readAcknowledgements := by
  obtain ⟨⟨_, _, _, _, _, rfl⟩, -⟩ := h; rfl

theorem streamLoop_spec (hv : ∀ req, C.validate req ≠ some .eof) {i : Nat} {r : Resolution}
    {b₀ : AppendFSM} {pl₀ : Pipeline σ} (hst : b₀.state = .streamContent)
    (hr : b₀.resolved = some r) (hok : r.status = .ok) (ds : List Delivery) :
    ∀ b pl pre, StreamInv C i r b₀ b pl₀ pl pre →
      ∃ b' pl' rest, streamLoop C i ds b pl = some (b', pl', rest) ∧
        ∃ consumed, ds = consumed ++ rest ∧
          ((rest = [] ∧ b'.state = .streamContent ∧
              StreamInv C i r b₀ b' pl₀ pl' (pre ++ consumed) ∧
              ∀ d ∈ consumed, ∃ req, d.chunk = .ok req) ∨
            Leaves C i r (CommitsStream C r pl₀.sendLatch (pre ++ consumed)) b₀ b' pl₀ pl') := by
  induction ds with
  | nil =>
    intro b pl pre h
    exact ⟨b, pl, [], rfl, [], rfl, .inl ⟨rfl, h.stays.state.trans hst, by simpa using h,
      by simp⟩⟩
  | cons d ds ih =>
    intro b pl pre h
    obtain ⟨b', pl', hstep, ⟨hst', hinv, hd⟩ | hl⟩ := h.step C hv hr hok d
    · obtain ⟨b'', pl'', rest, heq, consumed, rfl, hcase⟩ := ih b' pl' (pre ++ [d]) hinv
      refine ⟨b'', pl'', rest, ?_, d :: consumed, rfl, ?_⟩
      · simp [streamLoop, hstep, hst', hst, heq]
      · rw [List.append_cons]
        rcases hcase with ⟨h1, h2, h3, h4⟩ | hl
        · exact .inl ⟨h1, h2, h3, by simpa [hd] using h4⟩
        · exact .inr hl
    · refine ⟨b', pl', ds, ?_, [d], rfl, .inr hl⟩
      simp [streamLoop, hstep, hl.state]

theorem acknowledge_finished {i : Nat} {sendFailure recvFailure : Option Error}
    {b : AppendFSM} {pl : Pipeline σ} {r : Resolution} (ch : List (Option Nat))
    (hp : b.plnReturnCh = true) (hr : b.resolved = some r) :
    ∃ b' pl' ch', acknowledge i sendFailure recvFailure b pl ch = some (b', pl', ch') ∧
      (b'.state = .finished ↔ b.err = none ∧ r.status = .ok ∧
        pl.sendErrResult sendFailure = none ∧ pl.recvErrResult recvFailure = none) := by
  obtain ⟨pl₁, hrel, hrecv⟩ := releaseSendSide_eq i sendFailure pl ch hp
  obtain ⟨b', pl', hack, hfin⟩ := readAcknowledgements_finished i (pl.readBarrier + 1)
    (pl.sendErrResult sendFailure) recvFailure pl₁
    (show ({ b with plnReturnCh := false } : AppendFSM).resolved = some r from hr)
  refine ⟨b', pl', ch ++ [if pl.sendErrResult sendFailure = none then b.pln else none],
    by simp [acknowledge, hrel, hack], ?_⟩
  rw [hfin, Pipeline.recvErrResult, Pipeline.recvErrResult, hrecv]
  exact and_congr_right' (and_congr_right' and_comm)

end Gazette.Broker
