import Gazette.Broker.Stream

/-! The client's content in stateStreamContent: the content requests `onStreamContent`
scatters, with their `ContentDelta`s, and the client's fragment and SHA-1 summer they build,
for every stream of deliveries. The requests are read off the pipeline's log. -/

namespace Gazette.Broker

variable {σ : Type} (C : Collaborators σ)

/-! ### Content requests and content chunks -/

/-- The content requests among calls, newest first: the scatters whose request has content. -/
def contentRequests (calls : List Call) : List ReplicateRequest :=
  calls.filterMap fun c =>
    match c.op with
    | .scatter q => if q.content = [] then none else some q
    | _ => none

def scatteredContent (calls : List Call) : List (List UInt8) :=
  (contentRequests calls).reverse.map (·.content)

/-- Requests each carrying as `ContentDelta` the length of the content before it. -/
def Deltas (qs : List ReplicateRequest) : Prop :=
  ∀ j (hj : j < qs.length),
    qs[j].contentDelta = (((qs.take j).map (·.content)).flatten.length : Int)

theorem Deltas.append {qs : List ReplicateRequest} {q : ReplicateRequest} (h : Deltas qs)
    (hq : q.contentDelta = ((qs.map (·.content)).flatten.length : Int)) : Deltas (qs ++ [q]) := by
  intro j hj
  rw [List.length_append, List.length_singleton] at hj
  rcases Nat.lt_succ_iff_lt_or_eq.mp hj with hj | rfl
  · rw [List.getElem_append_left hj, List.take_append_of_le_length hj.le]
    exact h j hj
  · rw [List.getElem_append_right (Nat.le_refl _)]
    simpa using hq

def chunkContents (ds : List Delivery) : List (List UInt8) :=
  ds.filterMap fun d =>
    if chunkError C d.chunk = none ∧ chunkContent d.chunk ≠ [] then some (chunkContent d.chunk)
    else none

variable {C}

theorem chunkContents_of_content {ds : List Delivery} {d : Delivery}
    (h : chunkError C d.chunk = none ∧ chunkContent d.chunk ≠ []) :
    chunkContents C (ds ++ [d]) = chunkContents C ds ++ [chunkContent d.chunk] := by
  simp [chunkContents, List.filterMap_append, h]

theorem chunkContents_of_not {ds : List Delivery} {d : Delivery}
    (h : ¬(chunkError C d.chunk = none ∧ chunkContent d.chunk ≠ [])) :
    chunkContents C (ds ++ [d]) = chunkContents C ds := by
  simp only [chunkContents, List.filterMap_append, List.filterMap_cons, List.filterMap_nil,
    if_neg h, List.append_nil]

/-! ### The content on the pipeline -/

/-- Since `pl₀`, the content requests scattered carry `cs`, oldest first, with their deltas. -/
def ContentLog (pl₀ pl : Pipeline σ) (cs : List (List UInt8)) : Prop :=
  ∃ new, pl.log = new ++ pl₀.log ∧ scatteredContent new = cs ∧ Deltas (contentRequests new).reverse

theorem ContentLog.refl (pl : Pipeline σ) : ContentLog pl pl [] :=
  ⟨[], rfl, rfl, fun _ hj => absurd hj (Nat.not_lt_zero _)⟩

theorem ContentLog.call {pl₀ pl pl' : Pipeline σ} {cs : List (List UInt8)} {c : Call}
    (h : ContentLog pl₀ pl cs) (hlog : pl'.log = c :: pl.log) (hc : contentRequests [c] = []) :
    ContentLog pl₀ pl' cs := by
  obtain ⟨new, hl, hcs, hd⟩ := h
  have hnew : contentRequests (c :: new) = contentRequests new := by
    rw [← List.singleton_append, contentRequests, List.filterMap_append]
    exact congrArg (· ++ _) hc
  exact ⟨c :: new, by rw [hlog, hl, List.cons_append], by rw [scatteredContent, hnew]; exact hcs,
    by rw [hnew]; exact hd⟩

section Calls

variable {pl₀ pl : Pipeline σ} {cs : List (List UInt8)} (i : Nat) (st : AppendState)

theorem ContentLog.sendErr (h : ContentLog pl₀ pl cs) (failure : Option Error) :
    ContentLog pl₀ (pl.sendErr i st failure) cs :=
  h.call rfl (by simp [contentRequests])

theorem ContentLog.proposal (h : ContentLog pl₀ pl cs) {q : ReplicateRequest}
    (hq : q.content = []) : ContentLog pl₀ (pl.scatter C i st q) cs :=
  h.call rfl (by simp [contentRequests, hq])

theorem ContentLog.scatter (h : ContentLog pl₀ pl cs) (q : ReplicateRequest)
    (hq : q.content ≠ []) (hd : q.contentDelta = (cs.flatten.length : Int)) :
    ContentLog pl₀ (pl.scatter C i st q) (cs ++ [q.content]) := by
  obtain ⟨new, hl, hcs, hds⟩ := h
  have hnew : contentRequests (⟨i, st, .scatter q⟩ :: new) = q :: contentRequests new := by
    simp [contentRequests, hq]
  refine ⟨⟨i, st, .scatter q⟩ :: new, by simp [hl], ?_, ?_⟩
  · rw [scatteredContent, hnew, List.reverse_cons, List.map_append, ← hcs]; rfl
  · rw [hnew, List.reverse_cons]
    refine hds.append ?_
    rw [hd, ← hcs]; rfl

end Calls

/-! ### The client's fragment -/

/-- The client's content while the stream goes on, its fragment opened on a spool whose
fragment was `f`. -/
structure ContentInv (f : Fragment) (pl₀ : Pipeline σ) (b : AppendFSM) (pl : Pipeline σ)
    (cs : List (List UInt8)) : Prop where
  log : ContentLog pl₀ pl cs
  summer : b.clientSummer = cs.flatten
  fragment : ∃ cf, b.clientFragment = some cf ∧ cf.journal = f.journal ∧ cf.begin = f.end ∧
    cf.end = f.end + cs.flatten.length ∧ cf.compressionCodec = f.compressionCodec

theorem ContentInv.finishStream {f : Fragment} {pl₀ pl : Pipeline σ} {b : AppendFSM}
    {cs : List (List UInt8)} {r : Resolution} (h : ContentInv f pl₀ b pl cs) (i : Nat)
    (err failure : Option Error) (hr : b.resolved = some r)
    (hc : err = some .eof → b.clientCommit = true) :
    ∃ b' pl', finishStream C i err failure b pl = some (b', pl') ∧
      b'.state = .readAcknowledgements ∧ ContentInv f pl₀ b' pl' cs ∧
      ∃ cf, b'.clientFragment = some cf ∧ cf.sum = C.sha1 cs.flatten := by
  obtain ⟨cf, hcf, hj, hb, he, hcodec⟩ := h.fragment
  have hlog : ContentLog pl₀ (if err = some .eof then pl.sendErr i .streamContent failure else pl)
      cs := by
    split_ifs
    exacts [h.log.sendErr i .streamContent failure, h.log]
  unfold Broker.finishStream
  simp only [hcf, hr, Option.bind_eq_bind, Option.some_bind]
  generalize (if err = some .eof then pl.sendErr i .streamContent failure else pl) = pl₁ at hlog ⊢
  split_ifs with h1 h2
  -- the commit or the rollback proposal, which carries no content
  any_goals exact ⟨_, _, rfl, rfl, ⟨hlog.proposal i .streamContent rfl, h.summer, _, rfl, hj, hb,
    he, hcodec⟩, _, rfl, congrArg C.sha1 h.summer⟩
  exact absurd (hc h1.1) h2

theorem ContentInv.forward (C : Collaborators σ) {f : Fragment} {pl₀ pl : Pipeline σ}
    {b : AppendFSM} {cs : List (List UInt8)} {cf : Fragment} (h : ContentInv f pl₀ b pl cs)
    (hcf : b.clientFragment = some cf) (i : Nat) (failure : Option Error) {c : List UInt8}
    (hc : c ≠ []) :
    ContentInv f pl₀
      { b with
        clientSummer := b.clientSummer ++ c
        clientFragment := some { cf with «end» := cf.end + c.length } }
      ((pl.scatter C i .streamContent { content := c, contentDelta := cf.contentLength }).sendErr
        i .streamContent failure) (cs ++ [c]) := by
  obtain ⟨cf', hcf', hj, hb, he, hcodec⟩ := h.fragment
  obtain rfl : cf' = cf := Option.some.inj (hcf'.symm.trans hcf)
  refine ⟨((h.log.scatter i .streamContent _ hc ?_).sendErr i .streamContent failure),
    by simp [h.summer], _, rfl, hj, hb, ?_, hcodec⟩
  · simp only [Fragment.contentLength, he, hb]
    omega
  · simp only [he, List.flatten_append, List.length_append, List.flatten_singleton]
    push_cast
    omega

theorem ContentInv.streamChunk {f : Fragment} {pl₀ pl : Pipeline σ} {b : AppendFSM}
    {ds : List Delivery} {i : Nat} {r : Resolution}
    (h : ContentInv f pl₀ b pl (chunkContents C ds)) (hr : b.resolved = some r) (d : Delivery) :
    ∃ b' pl', streamChunk C i r d.chunk d.failure b pl = some (b', pl') ∧
      ((b'.state = b.state ∧ b'.resolved = b.resolved ∧
          ContentInv f pl₀ b' pl' (chunkContents C (ds ++ [d]))) ∨
        (b'.state = .readAcknowledgements ∧
          ∃ cs, (cs = chunkContents C (ds ++ [d]) ∨ cs = chunkContents C ds) ∧
            ContentInv f pl₀ b' pl' cs ∧ ∃ cf, b'.clientFragment = some cf ∧
              cf.sum = C.sha1 cs.flatten)) := by
  obtain ⟨cf, hcf, hj, hb, he, hcodec⟩ := h.fragment
  unfold Broker.streamChunk
  simp only [hcf, Option.bind_eq_bind, Option.some_bind]
  by_cases h1 : chunkError C d.chunk = some .eof ∧ !b.clientCommit
  · -- io.EOF before the commit chunk
    rw [if_pos h1]
    obtain ⟨b', pl', heq, hst, hinv, hsum⟩ :=
      h.finishStream i (some .unexpectedEOF) d.failure hr (by simp)
    exact ⟨b', pl', heq, .inr ⟨hst, _, .inr rfl, hinv, hsum⟩⟩
  rw [if_neg h1]
  by_cases h2 : chunkError C d.chunk = none ∧ b.clientCommit
  · -- a chunk after the commit chunk
    rw [if_pos h2]
    obtain ⟨b', pl', heq, hst, hinv, hsum⟩ :=
      h.finishStream i (some errExpectedEOF) d.failure hr (by simp [errExpectedEOF])
    exact ⟨b', pl', heq, .inr ⟨hst, _, .inr rfl, hinv, hsum⟩⟩
  rw [if_neg h2]
  by_cases h3 : chunkError C d.chunk = none ∧ chunkContent d.chunk = []
  · -- the commit chunk
    rw [if_pos h3, chunkContents_of_not fun h => h.2 h3.2]
    exact ⟨_, _, rfl, .inl ⟨rfl, rfl, h.log, h.summer, _, rfl, hj, hb, he, hcodec⟩⟩
  rw [if_neg h3]
  by_cases h4 : chunkError C d.chunk = none ∧ !r.journalSpec.flags.mayWrite
  · -- content on a journal that may not be written
    rw [if_pos h4]
    have h' : ContentInv f pl₀ { b with
        resolved := some { r with status := .notAllowed }
        clientFragment := some cf } pl (chunkContents C ds) :=
      ⟨h.log, h.summer, _, rfl, hj, hb, he, hcodec⟩
    obtain ⟨b', pl', heq, hst, hinv, hsum⟩ := h'.finishStream i none d.failure rfl (by simp)
    exact ⟨b', pl', heq, .inr ⟨hst, _, .inr rfl, hinv, hsum⟩⟩
  rw [if_neg h4]
  by_cases h5 : chunkError C d.chunk = none
  · -- content, forwarded
    have hne : chunkContent d.chunk ≠ [] := fun hc => h3 ⟨h5, hc⟩
    have hfwd := h.forward C hcf i d.failure hne
    rw [if_pos h5]
    by_cases h6 : pl.sendErrResult d.failure = none
    · -- sendErr() nil: the stream goes on
      rw [if_pos h6, chunkContents_of_content ⟨h5, hne⟩]
      exact ⟨_, _, rfl, .inl ⟨rfl, rfl, hfwd⟩⟩
    · -- sendErr() not nil: the stream ends
      rw [if_neg h6]
      obtain ⟨b', pl', heq, hst, hinv, hsum⟩ := hfwd.finishStream i none d.failure hr (by simp)
      rw [← chunkContents_of_content ⟨h5, hne⟩] at hinv hsum
      exact ⟨b', pl', heq, .inr ⟨hst, _, .inl rfl, hinv, hsum⟩⟩
  · -- any other error
    rw [if_neg h5]
    obtain ⟨b', pl', heq, hst, hinv, hsum⟩ :=
      h.finishStream i (chunkError C d.chunk) d.failure hr fun he' => by simpa [he'] using h1
    exact ⟨b', pl', heq, .inr ⟨hst, _, .inr rfl, hinv, hsum⟩⟩

/-! ### The stream loop -/

variable (C)

/-- Where the client's content stands between calls of `onStreamContent`. -/
def ContentAt (i : Nat) (r : Resolution) (f : Fragment) (pl₀ : Pipeline σ) (b : AppendFSM)
    (pl : Pipeline σ) (consumed : List Delivery) : Prop :=
  (b.clientFragment = none ∧ consumed = [] ∧ pl = pl₀ ∧
      f = C.fragment (beginClientFragment C i r b pl).2.spool) ∨
    ContentInv f pl₀ b pl (chunkContents C consumed)

/-- Where the client's content stands once the stream ended. -/
def ContentEnd (f : Fragment) (pl₀ : Pipeline σ) (b : AppendFSM) (pl : Pipeline σ)
    (consumed : List Delivery) : Prop :=
  ∃ cs, (cs = chunkContents C consumed ∨ cs = chunkContents C consumed.dropLast) ∧
    ContentInv f pl₀ b pl cs ∧ ∃ cf, b.clientFragment = some cf ∧ cf.sum = C.sha1 cs.flatten

variable {C}

theorem beginClientFragment_content (i : Nat) (r : Resolution) (b : AppendFSM)
    (pl : Pipeline σ) :
    (beginClientFragment C i r b pl).1.state = b.state ∧
      (beginClientFragment C i r b pl).1.resolved = b.resolved ∧
      ContentInv (C.fragment (beginClientFragment C i r b pl).2.spool) pl
        (beginClientFragment C i r b pl).1 (beginClientFragment C i r b pl).2 [] := by
  unfold beginClientFragment
  dsimp only
  split_ifs
  · exact ⟨rfl, rfl, (ContentLog.refl pl).proposal i .streamContent rfl, rfl, _, rfl, rfl, rfl,
      by simp, rfl⟩
  · exact ⟨rfl, rfl, ContentLog.refl pl, rfl, _, rfl, rfl, rfl, by simp, rfl⟩

theorem ContentAt.step {i : Nat} {r : Resolution} {f : Fragment} {pl₀ pl : Pipeline σ}
    {b : AppendFSM} {consumed : List Delivery} (h : ContentAt C i r f pl₀ b pl consumed)
    (hr : b.resolved = some r) (d : Delivery) :
    ∃ b' pl', onStreamContent C i d.chunk d.failure b pl = some (b', pl') ∧
      ((b'.state = b.state ∧ b'.resolved = b.resolved ∧
          ContentInv f pl₀ b' pl' (chunkContents C (consumed ++ [d]))) ∨
        (b'.state = .readAcknowledgements ∧ ContentEnd C f pl₀ b' pl' (consumed ++ [d]))) := by
  have hend {b' pl'} (cs : List (List UInt8)) (hcs : cs = chunkContents C (consumed ++ [d]) ∨
      cs = chunkContents C consumed) (hinv : ContentInv f pl₀ b' pl' cs)
      (hsum : ∃ cf, b'.clientFragment = some cf ∧ cf.sum = C.sha1 cs.flatten) :
      ContentEnd C f pl₀ b' pl' (consumed ++ [d]) :=
    ⟨cs, by rwa [List.dropLast_concat], hinv, hsum⟩
  rcases h with ⟨hcf, rfl, rfl, rfl⟩ | h
  · -- the first call opens the client's fragment
    obtain ⟨hst₁, hr₁, hinv⟩ := beginClientFragment_content i r b pl
    have hinv' : ContentInv _ pl _ _ (chunkContents C []) := hinv
    rw [show onStreamContent C i d.chunk d.failure b pl = streamChunk C i r d.chunk d.failure
      (beginClientFragment C i r b pl).1 (beginClientFragment C i r b pl).2 by
        simp [onStreamContent, hr, hcf]]
    obtain ⟨b', pl', heq, ⟨hst, hres, hinv'⟩ | ⟨hst, cs, hcs, hinv', hsum⟩⟩ :=
      hinv'.streamChunk (hr₁.trans hr) d
    exacts [⟨b', pl', heq, .inl ⟨hst.trans hst₁, hres.trans hr₁, hinv'⟩⟩,
      ⟨b', pl', heq, .inr ⟨hst, hend cs hcs hinv' hsum⟩⟩]
  · obtain ⟨cf, hcf, -⟩ := h.fragment
    rw [show onStreamContent C i d.chunk d.failure b pl =
      streamChunk C i r d.chunk d.failure b pl by simp [onStreamContent, hr, hcf]]
    obtain ⟨b', pl', heq, hstay | ⟨hst, cs, hcs, hinv', hsum⟩⟩ := h.streamChunk hr d
    exacts [⟨b', pl', heq, .inl hstay⟩, ⟨b', pl', heq, .inr ⟨hst, hend cs hcs hinv' hsum⟩⟩]

/-- The stream loop never panics, and leaves the content where `ContentEnd` says. -/
theorem ContentAt.loop {i : Nat} {r : Resolution} {f : Fragment} {pl₀ : Pipeline σ}
    (ds : List Delivery) : ∀ {b : AppendFSM} {pl : Pipeline σ} {consumed : List Delivery},
    b.state = .streamContent → b.resolved = some r → ContentAt C i r f pl₀ b pl consumed →
    ∃ b' pl' rest, streamLoop C i ds b pl = some (b', pl', rest) ∧ ∃ more, ds = more ++ rest ∧
      ((b'.state = .streamContent ∧ rest = [] ∧ ContentAt C i r f pl₀ b' pl' (consumed ++ more)) ∨
        (b'.state = .readAcknowledgements ∧ ContentEnd C f pl₀ b' pl' (consumed ++ more))) := by
  induction ds with
  | nil => exact fun hst _ h => ⟨_, _, [], rfl, [], rfl, .inl ⟨hst, rfl, by simpa using h⟩⟩
  | cons d ds ih =>
    intro b pl consumed hst hr h
    obtain ⟨b₁, pl₁, heq, ⟨hst₁, hr₁, hinv⟩ | ⟨hst₁, hend⟩⟩ := h.step hr d
    · obtain ⟨b', pl', rest, hloop, more, rfl, hcase⟩ :=
        ih (hst₁.trans hst) (hr₁.trans hr) (.inr hinv)
      refine ⟨b', pl', rest, ?_, d :: more, rfl, by simpa using hcase⟩
      simp [streamLoop, heq, hst₁, hst, hloop]
    · exact ⟨b₁, pl₁, ds, by simp [streamLoop, heq, hst₁], [d], rfl, .inr ⟨hst₁, hend⟩⟩

/-- Every content chunk consumed in stateStreamContent, but a refused last one, is scattered as
one content request in order; the client's fragment then spans that content and carries
its SHA-1. -/
theorem streamLoop_content {i : Nat} {r : Resolution} {b : AppendFSM} {pl : Pipeline σ}
    (hst : b.state = .streamContent) (hr : b.resolved = some r)
    (hcf : b.clientFragment = none) (ds : List Delivery) :
    ∃ b' pl' rest, streamLoop C i ds b pl = some (b', pl', rest) ∧
      ∃ consumed new, ds = consumed ++ rest ∧ (b'.state = .streamContent → rest = []) ∧
        pl'.log = new ++ pl.log ∧
        (scatteredContent new = chunkContents C consumed ∨
          (b'.state ≠ .streamContent ∧
            scatteredContent new = chunkContents C consumed.dropLast)) ∧
        Deltas (contentRequests new).reverse ∧
        (b'.state ≠ .streamContent → ∃ cf, b'.clientFragment = some cf ∧
          cf.begin = (C.fragment (beginClientFragment C i r b pl).2.spool).end ∧
          cf.end = cf.begin + (scatteredContent new).flatten.length ∧
          cf.sum = C.sha1 (scatteredContent new).flatten ∧
          cf.compressionCodec =
            (C.fragment (beginClientFragment C i r b pl).2.spool).compressionCodec) := by
  obtain ⟨b', pl', rest, hloop, consumed, hds,
      ⟨hst', hrest, h⟩ | ⟨hst', cs, hcs, hinv, cf', hcf', hsum⟩⟩ :=
    ContentAt.loop ds hst hr (.inl ⟨hcf, rfl, rfl, rfl⟩)
  · -- the stream goes on
    have hlog : ContentLog pl pl' (chunkContents C consumed) := by
      rcases h with ⟨-, rfl, rfl, -⟩ | h
      exacts [ContentLog.refl _, h.log]
    obtain ⟨new, hl, hnew, hd⟩ := hlog
    exact ⟨b', pl', rest, hloop, consumed, new, hds, fun _ => hrest, hl, .inl hnew, hd,
      fun h => absurd hst' h⟩
  · -- the stream ended
    have hne : b'.state ≠ .streamContent := by rw [hst']; decide
    obtain ⟨new, hl, rfl, hd⟩ := hinv.log
    obtain ⟨cf, hcf, -, hb, he, hcodec⟩ := hinv.fragment
    obtain rfl : cf' = cf := Option.some.inj (hcf'.symm.trans hcf)
    refine ⟨b', pl', rest, hloop, consumed, new, hds, fun h => absurd h hne, hl,
      hcs.imp id (⟨hne, ·⟩), hd, fun _ => ⟨cf', hcf, hb, by rw [he, hb], hsum, hcodec⟩⟩

theorem streamLoop_content_two_chunks :
    let C₀ : Collaborators Fragment := ⟨id, fun f => { f with begin := f.end }, fun f _ => f,
      fun f _ _ => f, fun _ => none, fun _ => .zero⟩
    let h₀ : Header := ⟨⟨"local", "broker"⟩, ⟨[⟨"local", "broker"⟩], 0⟩, 1⟩
    let r₀ : Resolution :=
      ⟨.ok, h₀, ⟨"local", "broker"⟩, ⟨"a/journal", 1, .rdWr, ⟨1024, .none⟩⟩, []⟩
    let b₀ : AppendFSM := { AppendFSM.init ⟨none, "a/journal", false, 0, []⟩ with
      resolved := some r₀
      pln := some 0
      plnReturnCh := true
      state := .streamContent }
    let pl₀ : Pipeline Fragment := newPipeline h₀ ⟨"a/journal", 0, 7, .zero, .none, "", 0⟩
    let ds : List Delivery := [⟨.ok ⟨none, "", false, 0, [1, 2]⟩, none⟩,
      ⟨.ok ⟨none, "", false, 0, [3]⟩, none⟩, ⟨.ok ⟨none, "", false, 0, []⟩, none⟩,
      ⟨.error .eof, none⟩]
    b₀.state = .streamContent ∧ b₀.resolved = some r₀ ∧ b₀.clientFragment = none ∧
      ∃ b' pl' rest, streamLoop C₀ 0 ds b₀ pl₀ = some (b', pl', rest) ∧
        ∃ consumed new, ds = consumed ++ rest ∧ (b'.state = .streamContent → rest = []) ∧
          pl'.log = new ++ pl₀.log ∧
          (scatteredContent new = chunkContents C₀ consumed ∨
            (b'.state ≠ .streamContent ∧
              scatteredContent new = chunkContents C₀ consumed.dropLast)) ∧
          Deltas (contentRequests new).reverse ∧
          (b'.state ≠ .streamContent → ∃ cf, b'.clientFragment = some cf ∧
            cf.begin = (C₀.fragment (beginClientFragment C₀ 0 r₀ b₀ pl₀).2.spool).end ∧
            cf.end = cf.begin + (scatteredContent new).flatten.length ∧
            cf.sum = C₀.sha1 (scatteredContent new).flatten ∧
            cf.compressionCodec =
              (C₀.fragment (beginClientFragment C₀ 0 r₀ b₀ pl₀).2.spool).compressionCodec) :=
  ⟨rfl, rfl, rfl, streamLoop_content rfl rfl rfl _⟩

end Gazette.Broker
