import Mathlib.Data.List.Nodup
import Gazette.Broker.Frame

/-! The read barrier of a pipeline as `onReadAcknowledgements` uses it: `barrier()` hands out
the signals 1, 2, ... as close-afters, each waiting on the one before, and the append that
took a signal closes it once it has gathered. On a replica `newReplica` made, in every
interleaving of appends: the signals are closed in the order they were taken, each once and
by the append that took it; an append gathers only once every signal before its own is
closed; and an append that took a signal waits at the barrier or gathers until it closes
it. -/

namespace Gazette.Broker

variable {σ : Type} {C : Collaborators σ}

/-! ### The signals of a pipeline's log -/

def Op.takes : Op → Option Nat
  | .barrier _ k' => some k'
  | _ => none

def Op.closes : Op → Option Nat
  | .close k => some k
  | _ => none

/-- The signals the `barrier()` calls of a log took, newest first. -/
def taken (log : List Call) : List Nat := log.filterMap (·.op.takes)

def closings (log : List Call) : List Nat := log.filterMap (·.op.closes)

def Unsignalled (new : List Call) : Prop := ∀ c ∈ new, c.op.takes = none ∧ c.op.closes = none

theorem taken_cons (c : Call) (l : List Call) : taken (c :: l) = c.op.takes.toList ++ taken l := by
  cases h : c.op.takes <;> simp [taken, List.filterMap_cons, h]

theorem closings_cons (c : Call) (l : List Call) :
    closings (c :: l) = c.op.closes.toList ++ closings l := by
  cases h : c.op.closes <;> simp [closings, List.filterMap_cons, h]

theorem taken_append (l₁ l₂ : List Call) : taken (l₁ ++ l₂) = taken l₁ ++ taken l₂ :=
  List.filterMap_append _ _ _

theorem closings_append (l₁ l₂ : List Call) : closings (l₁ ++ l₂) = closings l₁ ++ closings l₂ :=
  List.filterMap_append _ _ _

theorem closings_eq_nil {l : List Call} (h : ∀ c ∈ l, c.op.closes = none) : closings l = [] :=
  List.filterMap_eq_nil_iff.mpr h

theorem Unsignalled.taken {new : List Call} (h : Unsignalled new) : taken new = [] :=
  List.filterMap_eq_nil_iff.mpr fun c hc => (h c hc).1

theorem Unsignalled.closings {new : List Call} (h : Unsignalled new) : closings new = [] :=
  closings_eq_nil fun c hc => (h c hc).2

theorem Op.unsignalled_of_logOnly {op : Op} (h : op.logOnly = true) :
    op.takes = none ∧ op.closes = none := by
  cases op <;> simp_all [Op.logOnly, Op.takes, Op.closes]

theorem eq_of_takes {log : List Call} (hnd : (taken log).Nodup) {c₁ c₂ : Call} (h₁ : c₁ ∈ log)
    (h₂ : c₂ ∈ log) {k : Nat} (hk₁ : c₁.op.takes = some k) (hk₂ : c₂.op.takes = some k) :
    c₁ = c₂ := by
  induction log with
  | nil => cases h₁
  | cons c log ih =>
    have hmem {c₀ : Call} (h : c₀ ∈ log) (hk : c₀.op.takes = some k) : k ∈ taken log :=
      List.mem_filterMap.mpr ⟨c₀, h, hk⟩
    simp only [taken, List.filterMap_cons] at hnd
    rcases List.mem_cons.mp h₁ with rfl | h₁'
    · rcases List.mem_cons.mp h₂ with rfl | h₂'
      · rfl
      · rw [hk₁] at hnd
        exact absurd (hmem h₂' hk₂) (List.nodup_cons.mp hnd).1
    · rcases List.mem_cons.mp h₂ with rfl | h₂'
      · rw [hk₂] at hnd
        exact absurd (hmem h₁' hk₁) (List.nodup_cons.mp hnd).1
      · split at hnd
        exacts [ih hnd h₁' h₂', ih (List.nodup_cons.mp hnd).2 h₁' h₂']

/-! ### The chain as the pipeline keeps it -/

/-- The barrier chain as a pipeline's own calls keep it: its `barrier()`s took the signals
`readBarrier`, ..., 1, newest first, and its closed signals are those its log closed. -/
structure Signals (pl : Pipeline σ) : Prop where
  barriers : taken pl.log = (List.range pl.readBarrier).reverse.map (· + 1)
  waits : ∀ c ∈ pl.log, ∀ k k', c.op = .barrier k k' → k' = k + 1
  closed : pl.closed = closings pl.log ++ [0]

theorem signals_newPipeline (header : Header) (spool : σ) :
    Signals (newPipeline header spool) :=
  ⟨rfl, by simp [newPipeline], rfl⟩

theorem Pipeline.Step.signals {pl pl' : Pipeline σ} {c : Call} (h : Pipeline.Step C pl c pl')
    (hs : Signals pl) : Signals pl' := by
  obtain ⟨ht, hw, hc⟩ := hs
  have hlog := h.log
  have hwaits (hc : ∀ k k', c.op = .barrier k k' → k' = k + 1) :
      ∀ c₀ ∈ pl'.log, ∀ k k', c₀.op = .barrier k k' → k' = k + 1 := by
    rw [hlog]
    intro c₀ hc₀
    rcases List.mem_cons.mp hc₀ with rfl | hc₀
    exacts [hc, hw c₀ hc₀]
  cases h with
  | barrier =>
    refine ⟨?_, hwaits fun _ _ h => by cases h; rfl, ?_⟩
    · simp [taken_cons, Op.takes, List.range_succ, ht]
    · simp [closings_cons, Op.closes, hc]
  | close =>
    exact ⟨by simp [taken_cons, Op.takes, ht], hwaits nofun, by simp [closings_cons, Op.closes, hc]⟩
  | record _ _ op hop =>
    obtain ⟨h₁, h₂⟩ := Op.unsignalled_of_logOnly hop
    refine ⟨by simp [taken_cons, h₁, ht], hwaits fun _ _ h => ?_, by simp [closings_cons, h₂, hc]⟩
    simp only at h
    simp [h, Op.takes] at h₁
  | _ => exact ⟨by simp [taken_cons, Op.takes, ht], hwaits nofun, by simp [closings_cons, Op.closes, hc]⟩

theorem Pipeline.Steps.signals {pl pl' : Pipeline σ} {cs : List Call}
    (h : Pipeline.Steps C pl cs pl') (hs : Signals pl) : Signals pl' := by
  induction h with
  | nil => exact hs
  | cons _ hstep ih => exact hstep.signals ih

namespace Signals

variable {pl : Pipeline σ}

theorem nodup (hs : Signals pl) : (taken pl.log).Nodup := by
  rw [hs.barriers]
  exact (List.nodup_reverse.mpr (List.nodup_range _)).map fun _ _ => Nat.succ.inj

theorem mem_taken (hs : Signals pl) {k : Nat} : k ∈ taken pl.log ↔ 1 ≤ k ∧ k ≤ pl.readBarrier := by
  rw [hs.barriers]
  simp only [List.mem_map, List.mem_reverse, List.mem_range]
  constructor
  · rintro ⟨a, ha, rfl⟩
    omega
  · exact fun h => ⟨k - 1, by omega, by omega⟩

theorem barrier_unique (hs : Signals pl) {c₁ c₂ : Call} (h₁ : c₁ ∈ pl.log) (h₂ : c₂ ∈ pl.log)
    {k₁ k₂ k' : Nat} (hb₁ : c₁.op = .barrier k₁ k') (hb₂ : c₂.op = .barrier k₂ k') : c₁ = c₂ :=
  eq_of_takes hs.nodup h₁ h₂ (by rw [hb₁]; rfl) (by rw [hb₂]; rfl)

theorem mem_taken_of_barrier (hs : Signals pl) {c : Call} (h : c ∈ pl.log) {k k' : Nat}
    (hb : c.op = .barrier k k') : 1 ≤ k' ∧ k' ≤ pl.readBarrier :=
  hs.mem_taken.mp (List.mem_filterMap.mpr ⟨c, h, by rw [hb]; rfl⟩)

theorem extend (hs : Signals pl) {pl' : Pipeline σ} {new : List Call} (hs' : Signals pl')
    (hlog : pl'.log = new ++ pl.log) :
    pl'.readBarrier = (taken new).length + pl.readBarrier ∧
      pl'.closed = closings new ++ pl.closed := by
  have ht := congrArg List.length hs'.barriers
  rw [hlog, taken_append, hs.barriers] at ht
  refine ⟨by simpa using ht.symm, ?_⟩
  rw [hs'.closed, hs.closed, hlog, closings_append, List.append_assoc]

end Signals

/-! ### What each step does to the chain -/

theorem getElem?_set_cases {α : Type} {ps : List α} {p q : Nat} {x y z : α} (hp : ps[p]? = some x)
    (h : (ps.set p y)[q]? = some z) : (q = p ∧ z = y) ∨ (q ≠ p ∧ ps[q]? = some z) := by
  by_cases hqp : q = p
  · subst hqp
    rw [getElem?_set_of_some hp] at h
    exact .inl ⟨rfl, (Option.some.inj h).symm⟩
  · rw [List.getElem?_set_ne (Ne.symm hqp)] at h
    exact .inr ⟨hqp, h⟩

section Steps

variable {i : Nat} {ρ ρ' : Run} {w w' : Replica σ}

theorem RunStep.built (h : RunStep C i ρ w ρ' w') (hs : Shape ρ) {q : Nat} {pl' : Pipeline σ}
    (hq' : w'.pipelines[q]? = some pl') (hq : w.pipelines[q]? = none) :
    ∃ header spool, pl' = newPipeline header spool := by
  rcases h.logs hs hq' with ⟨pl, -, hpl, -⟩ | ⟨rfl, -, -, -, r, spool, -, rfl⟩
  · rw [hq] at hpl
    cases hpl
  · exact ⟨_, _, rfl⟩

theorem CallFacts.quiet {q : Nat} {op : Op} (hf : CallFacts ρ q op) (hpc : ρ.pc = .running)
    (hst : ρ.fsm.state ≠ .readAcknowledgements) :
    op.takes = none ∧ op.closes = none ∧ op ≠ .gatherOK ∧ op ≠ .gatherEOF := by
  cases op <;> simp only [CallFacts] at hf <;> simp only [Op.takes, Op.closes] <;> try simp
  · exact hst hf.2.2
  · obtain ⟨-, _, _, hg⟩ := hf
    exact absurd (hpc.symm.trans hg) nofun
  · obtain ⟨-, _, _, hg⟩ := hf
    exact absurd (hpc.symm.trans hg) nofun
  · obtain ⟨-, _, hg⟩ := hf
    exact absurd (hpc.symm.trans hg) nofun

theorem RunStep.quiet (h : RunStep C i ρ w ρ' w') (hs : Shape ρ) (hpc : ρ.pc = .running)
    (hst : ρ.fsm.state ≠ .readAcknowledgements) :
    (ρ'.pc = .running ∨ ρ'.pc = .returned) ∧
    (∀ (q : Nat) (pl : Pipeline σ), w.pipelines[q]? = some pl → ∃ pl' new,
      w'.pipelines[q]? = some pl' ∧ Pipeline.Steps C pl new pl' ∧ Unsignalled new ∧
        ∀ c ∈ new, c.run = i ∧ c.op ≠ .gatherOK ∧ c.op ≠ .gatherEOF) ∧
    (∀ (q : Nat) (pl' : Pipeline σ), w'.pipelines[q]? = some pl' → w.pipelines[q]? = none →
      ∃ header spool, pl' = newPipeline header spool) := by
  refine ⟨?_, fun q pl hq => ?_, fun q pl' hq' hq => h.built hs hq' hq⟩
  · cases h with
    | releaseSendSide _ _ hst' => exact absurd hst' hst
    | passBarrier hpc' | readAcknowledgements _ hpc' => exact absurd (hpc.symm.trans hpc') nofun
    | exit => exact .inr rfl
    | _ => exact .inl hpc
  · obtain ⟨pl', hq', new, hsteps, hnew⟩ := h.extends hs hq
    have hcall (c : Call) (hc : c ∈ new) := (hnew c hc).2.2.quiet hpc hst
    exact ⟨pl', new, hq', hsteps, fun c hc => ⟨(hcall c hc).1, (hcall c hc).2.1⟩,
      fun c hc => ⟨(hnew c hc).1, (hcall c hc).2.2⟩⟩

/-- The step of an append in stateReadAcknowledgements: `releaseSendSide`, whose `barrier()`
takes the next signal. -/
theorem RunStep.of_releasing (h : RunStep C i ρ w ρ' w') (hs : Shape ρ) (hpc : ρ.pc = .running)
    (hst : ρ.fsm.state = .readAcknowledgements) :
    ∃ p pl pl' new e, ρ.fsm.pln = some p ∧ w.pipelines[p]? = some pl ∧
      w'.pipelines = w.pipelines.set p pl' ∧ ρ'.fsm.pln = ρ.fsm.pln ∧
      ρ'.pc = .awaitBarrier pl.readBarrier (pl.readBarrier + 1) e ∧
      Pipeline.Steps C pl (new ++ [⟨i, .readAcknowledgements, .barrier pl.readBarrier
        (pl.readBarrier + 1)⟩, ⟨i, .readAcknowledgements, .sendErr e⟩]) pl' ∧
      (∀ c ∈ new, c = ⟨i, .readAcknowledgements, .closeSend⟩) ∧
      ρ.fsm.plnReturnCh = true ∧ ρ'.fsm.plnReturnCh = false ∧
      ∃ v, w'.pipelineCh = w.pipelineCh ++ [v] ∧ (v = ρ.fsm.pln ∨ v = none) := by
  cases h with
  | @releaseSendSide p pl _ _ _ f _ _ hp hpl h =>
    obtain ⟨⟨hret, -⟩, -⟩ : ShapeAt .readAcknowledgements ρ := hst ▸ (Shape.running hpc).mp hs
    obtain ⟨pl₁, heq, hsteps⟩ := releaseSendSide_steps C i f pl w.pipelineCh hret
    rw [heq] at h
    cases h
    refine ⟨p, pl, _, _, _, hp, hpl, rfl, rfl, rfl, hsteps, fun c hc => ?_, hret, rfl, _, rfl,
      by split_ifs <;> simp⟩
    split_ifs at hc <;> simp_all
  | resolve _ _ hst' | acquirePipeline _ _ hst' | startPipeline _ _ hst'
  | sendPipelineSync _ hst' | recvPipelineSync _ _ _ _ _ hst' | updateAssignments _ _ _ hst'
  | awaitDesiredReplicas _ hst' | validateOffset _ _ _ hst' | chunk _ _ _ hst' | tickIdle _ _ hst'
  | tick _ hst' => exact absurd (hst.symm.trans hst') (by decide)
  | passBarrier hpc' | readAcknowledgements _ hpc' => exact absurd (hpc.symm.trans hpc') nofun
  | exit _ hst' => rcases hst' with h | h | h <;> exact absurd (hst.symm.trans h) (by decide)

theorem RunStep.of_awaitBarrier (h : RunStep C i ρ w ρ' w') {k k' : Nat} {e : Option Error}
    (hpc : ρ.pc = .awaitBarrier k k' e) :
    ∃ p pl, ρ.fsm.pln = some p ∧ w.pipelines[p]? = some pl ∧ k ∈ pl.closed ∧
      ρ' = { ρ with pc := .gathering k' e } ∧ w' = w := by
  cases h with
  | passBarrier hpc' hp hpl hk =>
    cases hpc.symm.trans hpc'
    exact ⟨_, _, hp, hpl, hk, rfl, rfl⟩
  | readAcknowledgements _ hpc' => exact absurd (hpc.symm.trans hpc') nofun
  | _ => exact absurd (hpc.symm.trans ‹ρ.pc = .running›) nofun

theorem RunStep.of_gathering (h : RunStep C i ρ w ρ' w') {k' : Nat} {e : Option Error}
    (hpc : ρ.pc = .gathering k' e) :
    ∃ p pl pl' rest, ρ.fsm.pln = some p ∧ w.pipelines[p]? = some pl ∧
      w'.pipelines = w.pipelines.set p pl' ∧ ρ'.pc = .running ∧
      Pipeline.Steps C pl (⟨i, .readAcknowledgements, .close k'⟩ :: rest) pl' ∧
      ∀ c ∈ rest, c.run = i ∧ c.state = .readAcknowledgements ∧
        (c.op = .gatherOK ∨ c.op = .gatherEOF ∨ ∃ e, c.op = .recvErr e) := by
  cases h with
  | readAcknowledgements _ hpc' hp hpl h =>
    cases hpc.symm.trans hpc'
    obtain ⟨rest, hsteps, hrest⟩ := readAcknowledgements_steps C h
    exact ⟨_, _, _, rest, hp, hpl, rfl, rfl, hsteps, hrest⟩
  | passBarrier hpc' => exact absurd (hpc.symm.trans hpc') nofun
  | _ => exact absurd (hpc.symm.trans ‹ρ.pc = .running›) nofun

end Steps

/-! ### The chain as the appends keep it -/

/-- Every `barrier()` of `l` before `k'` had its signal closed by the append that took it. -/
def ClosedBefore (l : List Call) (k' : Nat) : Prop :=
  ∀ c ∈ l, ∀ k₀ k₀', c.op = .barrier k₀ k₀' → k₀' < k' →
    (⟨c.run, .readAcknowledgements, .close k₀'⟩ : Call) ∈ l

/-- Every gather of a log comes after its append's `barrier()` and after the signals before it
were closed. -/
def GathersInTurn : List Call → Prop
  | [] => True
  | c :: l => ((c.op = .gatherOK ∨ c.op = .gatherEOF) →
      ∃ k, (⟨c.run, .readAcknowledgements, .barrier k (k + 1)⟩ : Call) ∈ l ∧
        ClosedBefore l (k + 1)) ∧ GathersInTurn l

theorem ClosedBefore.append {l new : List Call} {k' : Nat} (h : ClosedBefore l k')
    (hnew : ∀ c ∈ new, c.op.takes = none) : ClosedBefore (new ++ l) k' := by
  intro c hc k₀ k₀' hop hlt
  rcases List.mem_append.mp hc with hc | hc
  · have := hnew c hc
    simp [hop, Op.takes] at this
  · exact List.mem_append_right _ (h c hc k₀ k₀' hop hlt)

theorem GathersInTurn.append {log : List Call} (h : GathersInTurn log) :
    ∀ {new : List Call}, (∀ l₁ c l₂, new = l₁ ++ c :: l₂ → (c.op = .gatherOK ∨ c.op = .gatherEOF) →
      ∃ k, (⟨c.run, .readAcknowledgements, .barrier k (k + 1)⟩ : Call) ∈ l₂ ++ log ∧
        ClosedBefore (l₂ ++ log) (k + 1)) → GathersInTurn (new ++ log)
  | [], _ => h
  | c :: _, hnew => ⟨hnew [] c _ rfl,
      GathersInTurn.append h fun l₁ c' l₂ he => hnew (c :: l₁) c' l₂ (by rw [he]; rfl)⟩

theorem GathersInTurn.append_quiet {log new : List Call} (h : GathersInTurn log)
    (hnew : ∀ c ∈ new, c.op ≠ .gatherOK ∧ c.op ≠ .gatherEOF) : GathersInTurn (new ++ log) :=
  h.append fun l₁ c l₂ he hg => by
    have hc := hnew c (by rw [he]; simp)
    rcases hg with hg | hg
    exacts [absurd hg hc.1, absurd hg hc.2]

theorem GathersInTurn.of_suffix {log l : List Call} {c : Call} (h : GathersInTurn log)
    (hs : c :: l <:+ log) (hg : c.op = .gatherOK ∨ c.op = .gatherEOF) :
    ∃ k, (⟨c.run, .readAcknowledgements, .barrier k (k + 1)⟩ : Call) ∈ l ∧
      ClosedBefore l (k + 1) := by
  induction log with
  | nil => exact absurd (List.eq_nil_of_suffix_nil hs) nofun
  | cons a log ih =>
    rcases List.suffix_cons_iff.mp hs with he | hs
    · cases he
      exact h.1 hg
    · exact ih h.2 hs

/-- The barrier chain of a pipeline as the appends keep it: the signals closed are `0, ..., c`,
each closed once, in order, by the append that took it, and the gathers came in turn. -/
structure Chained (pl : Pipeline σ) : Prop where
  signals : Signals pl
  inOrder : ∃ c ≤ pl.readBarrier, pl.closed = (List.range (c + 1)).reverse
  closer : ∀ c ∈ pl.log, ∀ k, c.op = .close k → c.state = .readAcknowledgements ∧
    ∃ k₀, (⟨c.run, .readAcknowledgements, .barrier k₀ k⟩ : Call) ∈ pl.log
  gathers : GathersInTurn pl.log

theorem chained_newPipeline (header : Header) (spool : σ) : Chained (newPipeline header spool) :=
  ⟨signals_newPipeline header spool, ⟨0, le_rfl, rfl⟩, (fun _ h => nomatch h), trivial⟩

theorem range_succ_reverse (n : Nat) : (List.range (n + 1)).reverse = n :: (List.range n).reverse := by
  simp [List.range_succ]

theorem Op.closes_eq_some {op : Op} {k : Nat} : op.closes = some k ↔ op = .close k := by
  cases op <;> simp [Op.closes]

namespace Chained

variable {pl pl' : Pipeline σ}

theorem closedBefore (h : Chained pl) {k' : Nat} (hk : k' - 1 ∈ pl.closed) :
    ClosedBefore pl.log k' := by
  obtain ⟨c, -, hc⟩ := h.inOrder
  intro b hb k₀ k₀' hop hlt
  have hpos := (h.signals.mem_taken_of_barrier hb hop).1
  have hmem : k₀' ∈ closings pl.log := by
    have hk₀ : k₀' ∈ pl.closed := by
      rw [hc] at hk ⊢
      simp only [List.mem_reverse, List.mem_range] at hk ⊢
      omega
    rw [h.signals.closed, List.mem_append, List.mem_singleton] at hk₀
    exact hk₀.resolve_right (by omega)
  obtain ⟨⟨r, st, op⟩, hcl, hk₀⟩ := List.mem_filterMap.mp hmem
  have hop' : op = .close k₀' := Op.closes_eq_some.mp hk₀
  obtain ⟨hst, k₁, hbar⟩ := h.closer _ hcl k₀' hop'
  subst hst hop'
  rw [h.signals.barrier_unique hb hbar hop rfl]
  exact hcl

theorem extend (h : Chained pl) {new : List Call} (hsteps : Pipeline.Steps C pl new pl')
    (hclose : ∀ c ∈ new, c.op.closes = none)
    (hg : ∀ c ∈ new, c.op ≠ .gatherOK ∧ c.op ≠ .gatherEOF) : Chained pl' := by
  have hs' := hsteps.signals h.signals
  have hlog := hsteps.log
  obtain ⟨hrb, hcl⟩ := h.signals.extend hs' hlog
  rw [closings_eq_nil hclose, List.nil_append] at hcl
  obtain ⟨c, hc, hcl₀⟩ := h.inOrder
  refine ⟨hs', ⟨c, by omega, hcl.trans hcl₀⟩, fun c₀ hc₀ k hop => ?_, hlog ▸ h.gathers.append_quiet hg⟩
  rw [hlog] at hc₀ ⊢
  rcases List.mem_append.mp hc₀ with hc₀ | hc₀
  · have := hclose c₀ hc₀
    simp [hop, Op.closes] at this
  · obtain ⟨hst, k₀, hb⟩ := h.closer c₀ hc₀ k hop
    exact ⟨hst, k₀, List.mem_append_right _ hb⟩

theorem close (h : Chained pl) {rest : List Call} {i k k' : Nat}
    (hsteps : Pipeline.Steps C pl (⟨i, .readAcknowledgements, .close k'⟩ :: rest) pl')
    (hrest : ∀ c ∈ rest, c.run = i ∧ c.state = .readAcknowledgements ∧
      (c.op = .gatherOK ∨ c.op = .gatherEOF ∨ ∃ e, c.op = .recvErr e))
    (hb : (⟨i, .readAcknowledgements, .barrier k k'⟩ : Call) ∈ pl.log) (hk' : k' ∉ pl.closed)
    (hk : k ∈ pl.closed) : Chained pl' ∧ pl'.closed = k' :: pl.closed := by
  have hs' := hsteps.signals h.signals
  have hlog := hsteps.log
  have hun : Unsignalled rest := fun c hc => by
    rcases (hrest c hc).2.2 with h | h | ⟨e, h⟩ <;> simp [h, Op.takes, Op.closes]
  obtain ⟨hrb, hcl⟩ := h.signals.extend hs' hlog
  simp only [taken_cons, closings_cons, hun.taken, hun.closings, Op.takes, Op.closes,
    Option.toList, List.append_nil, List.nil_append, List.length_nil, Nat.zero_add,
    List.singleton_append] at hrb hcl
  have hkk : k' = k + 1 := h.signals.waits _ hb k k' rfl
  have hk'rb := (h.signals.mem_taken_of_barrier hb rfl).2
  obtain ⟨c, -, hcl₀⟩ := h.inOrder
  rw [hcl₀] at hk hk'
  simp only [List.mem_reverse, List.mem_range, not_lt] at hk hk'
  have hunq : ∀ c₀ ∈ (⟨i, .readAcknowledgements, .close k'⟩ :: rest : List Call),
      c₀.op.takes = none := fun c₀ hc₀ => by
    rcases List.mem_cons.mp hc₀ with rfl | hc₀
    exacts [rfl, (hun c₀ hc₀).1]
  refine ⟨⟨hs', ⟨c + 1, by omega, ?_⟩, fun c₀ hc₀ k₀ hop => ?_, ?_⟩, hcl⟩
  · rw [hcl, hcl₀, show k' = c + 1 by omega, range_succ_reverse (c + 1)]
  · rw [hlog] at hc₀ ⊢
    rcases List.mem_append.mp hc₀ with hc₀ | hc₀
    · rcases List.mem_cons.mp hc₀ with rfl | hc₀
      · cases hop
        exact ⟨rfl, k, List.mem_append_right _ hb⟩
      · have := (hun c₀ hc₀).2
        simp [hop, Op.closes] at this
    · obtain ⟨hst, k₁, hb₁⟩ := h.closer c₀ hc₀ k₀ hop
      exact ⟨hst, k₁, List.mem_append_right _ hb₁⟩
  · rw [hlog]
    refine h.gathers.append fun l₁ c₀ l₂ he hg => ?_
    have hc₀ : c₀ ∈ rest := by
      cases l₁ with
      | nil =>
        cases he
        rcases hg with hg | hg <;> cases hg
      | cons _ l₁ =>
        rw [List.cons_append, List.cons.injEq] at he
        rw [he.2]
        simp
    have hl₂ : ∀ c ∈ l₂, c.op.takes = none := fun c hc => hunq c (by rw [he]; simp [hc])
    refine ⟨k, ?_, ?_⟩
    · rw [(hrest c₀ hc₀).1, ← hkk]
      exact List.mem_append_right _ hb
    · rw [← hkk]
      exact (h.closedBefore (by rw [hcl₀]; simp; omega)).append hl₂

end Chained

/-! ### The appends at the barrier -/

/-- Where append `j` waits after taking a signal. -/
def Waiting (w : Replica σ) (j : Nat) (ρ : Run) : Prop :=
  match ρ.pc with
  | .awaitBarrier k k' _ => ∃ q pl, ρ.fsm.pln = some q ∧ w.pipelines[q]? = some pl ∧
      (⟨j, .readAcknowledgements, .barrier k k'⟩ : Call) ∈ pl.log ∧ k' ∉ pl.closed
  | .gathering k' _ => ∃ q pl k, ρ.fsm.pln = some q ∧ w.pipelines[q]? = some pl ∧
      (⟨j, .readAcknowledgements, .barrier k k'⟩ : Call) ∈ pl.log ∧ k' ∉ pl.closed ∧
        k ∈ pl.closed
  | _ => True

/-- Append `j` owes the close of every signal it took that is not closed. -/
def Owes (w : Replica σ) (j : Nat) (ρ : Run) : Prop :=
  ∀ (q : Nat) (pl : Pipeline σ), w.pipelines[q]? = some pl → ∀ c ∈ pl.log, c.run = j →
    ∀ k k', c.op = .barrier k k' → k' ∉ pl.closed →
      ρ.fsm.pln = some q ∧ ∃ e, ρ.pc = .awaitBarrier k k' e ∨ ρ.pc = .gathering k' e

theorem Owes.closed_of_running {w : Replica σ} {j : Nat} {ρ : Run} (h : Owes w j ρ)
    (hpc : ρ.pc = .running) {q : Nat} {pl : Pipeline σ} (hq : w.pipelines[q]? = some pl)
    {c : Call} (hc : c ∈ pl.log) (hrun : c.run = j) {k k' : Nat} (hop : c.op = .barrier k k') :
    k' ∈ pl.closed := by
  by_contra hk'
  obtain ⟨-, e, he | he⟩ := h q pl hq c hc hrun k k' hop hk' <;> rw [hpc] at he <;> cases he

/-- What a step of append `i` does to the pipelines, as the other appends see it. -/
structure Grows (i : Nat) (w w' : Replica σ) : Prop where
  old : ∀ (q : Nat) (pl : Pipeline σ), w.pipelines[q]? = some pl → ∃ pl' new ks,
    w'.pipelines[q]? = some pl' ∧ pl'.log = new ++ pl.log ∧ (∀ c ∈ new, c.run = i) ∧
      pl'.closed = ks ++ pl.closed ∧
      ∀ k ∈ ks, ∃ k₀, (⟨i, .readAcknowledgements, .barrier k₀ k⟩ : Call) ∈ pl.log
  built : ∀ (q : Nat) (pl' : Pipeline σ), w'.pipelines[q]? = some pl' → w.pipelines[q]? = none →
    pl'.log = []

section Others

variable {i j : Nat} {w w' : Replica σ} {ρ₀ : Run}

theorem Grows.refl (i : Nat) (w : Replica σ) : Grows i w w :=
  ⟨fun _ pl hq => ⟨pl, [], [], hq, rfl, by simp, rfl, by simp⟩,
    fun _ _ h h' => by rw [h] at h'; cases h'⟩

theorem Grows.set {p : Nat} {pl pl' : Pipeline σ} {new : List Call} {ks : List Nat}
    (hp : w.pipelines[p]? = some pl) (hw : w'.pipelines = w.pipelines.set p pl')
    (hlog : pl'.log = new ++ pl.log) (hnew : ∀ c ∈ new, c.run = i)
    (hcl : pl'.closed = ks ++ pl.closed)
    (hks : ∀ k ∈ ks, ∃ k₀, (⟨i, .readAcknowledgements, .barrier k₀ k⟩ : Call) ∈ pl.log) :
    Grows i w w' := by
  refine ⟨fun q pl₀ hq => ?_, fun q pl₀ hq' hq => ?_⟩ <;> by_cases hqp : q = p
  · subst hqp
    rw [hp] at hq
    cases hq
    exact ⟨pl', new, ks, hw ▸ getElem?_set_of_some hp _, hlog, hnew, hcl, hks⟩
  · rw [hw, List.getElem?_set_ne (Ne.symm hqp)]
    exact ⟨pl₀, [], [], hq, rfl, by simp, rfl, by simp⟩
  · subst hqp
    rw [hp] at hq
    cases hq
  · rw [hw, List.getElem?_set_ne (Ne.symm hqp), hq] at hq'
    cases hq'

theorem Waiting.grows (h : Waiting w j ρ₀) (hg : Grows i w w') (hji : j ≠ i)
    (hch : ∀ (q : Nat) (pl : Pipeline σ), w.pipelines[q]? = some pl → Chained pl) :
    Waiting w' j ρ₀ := by
  have hkeep {q : Nat} {pl : Pipeline σ} {k k' : Nat} (hq : w.pipelines[q]? = some pl)
      (hb : (⟨j, .readAcknowledgements, .barrier k k'⟩ : Call) ∈ pl.log) (hk' : k' ∉ pl.closed) :
      ∃ pl', w'.pipelines[q]? = some pl' ∧
        (⟨j, .readAcknowledgements, .barrier k k'⟩ : Call) ∈ pl'.log ∧ k' ∉ pl'.closed ∧
        ∀ k₀ ∈ pl.closed, k₀ ∈ pl'.closed := by
    obtain ⟨pl', new, ks, hq', hlog, -, hcl, hks⟩ := hg.old q pl hq
    refine ⟨pl', hq', hlog ▸ List.mem_append_right _ hb, ?_,
      fun k₀ hk₀ => hcl ▸ List.mem_append_right _ hk₀⟩
    rw [hcl, List.mem_append, not_or]
    refine ⟨fun hks' => hji ?_, hk'⟩
    obtain ⟨k₀, hb₀⟩ := hks k' hks'
    exact congrArg Call.run ((hch q pl hq).signals.barrier_unique hb hb₀ rfl rfl)
  rcases hpc : ρ₀.pc with _ | ⟨k, k', e⟩ | ⟨k', e⟩ | _ <;> simp only [Waiting, hpc] at h ⊢
  · obtain ⟨q, pl, hp, hq, hb, hk'⟩ := h
    obtain ⟨pl', hq', hb', hk'', -⟩ := hkeep hq hb hk'
    exact ⟨q, pl', hp, hq', hb', hk''⟩
  · obtain ⟨q, pl, k, hp, hq, hb, hk', hk⟩ := h
    obtain ⟨pl', hq', hb', hk'', hsub⟩ := hkeep hq hb hk'
    exact ⟨q, pl', k, hp, hq', hb', hk'', hsub k hk⟩

theorem Owes.grows (h : Owes w j ρ₀) (hg : Grows i w w') (hji : j ≠ i) : Owes w' j ρ₀ := by
  intro q pl' hq' c hc hrun k k' hop hk'
  cases hq : w.pipelines[q]? with
  | none =>
    rw [hg.built q pl' hq' hq] at hc
    cases hc
  | some pl =>
    obtain ⟨pl'', new, ks, hq'', hlog, hnew, hcl, -⟩ := hg.old q pl hq
    have hpl : pl'' = pl' := Option.some.inj (hq''.symm.trans hq')
    subst hpl
    rw [hlog] at hc
    rcases List.mem_append.mp hc with hc | hc
    · exact absurd ((hnew c hc).symm.trans hrun) (Ne.symm hji)
    · exact h q pl hq c hc hrun k k' hop fun hk => hk' (hcl ▸ List.mem_append_right _ hk)

end Others

/-! ### One step, and every reachable state -/

section Step

variable {i : Nat} {ρ ρ' : Run} {w w' : Replica σ}

/-- What one step of append `i` keeps. -/
def Keeps (i : Nat) (ρ' : Run) (w w' : Replica σ) : Prop :=
  (∀ (q : Nat) (pl : Pipeline σ), w'.pipelines[q]? = some pl → Chained pl) ∧
    Waiting w' i ρ' ∧ Owes w' i ρ' ∧ Grows i w w'

theorem RunStep.chain_quiet (h : RunStep C i ρ w ρ' w') (hs : Shape ρ) (hpc : ρ.pc = .running)
    (hst : ρ.fsm.state ≠ .readAcknowledgements)
    (hJ : ∀ (q : Nat) (pl : Pipeline σ), w.pipelines[q]? = some pl → Chained pl)
    (hO : Owes w i ρ) : Keeps i ρ' w w' := by
  obtain ⟨hpc', hold, hbuilt⟩ := h.quiet hs hpc hst
  have hext {q : Nat} {pl : Pipeline σ} (hq : w.pipelines[q]? = some pl) :
      ∃ pl' new, w'.pipelines[q]? = some pl' ∧ Pipeline.Steps C pl new pl' ∧ Unsignalled new ∧
        (∀ c ∈ new, c.run = i ∧ c.op ≠ .gatherOK ∧ c.op ≠ .gatherEOF) ∧
        pl'.closed = pl.closed := by
    obtain ⟨pl', new, hq', hsteps, hun, hnew⟩ := hold q pl hq
    have hcl := ((hJ q pl hq).signals.extend (hsteps.signals (hJ q pl hq).signals) hsteps.log).2
    exact ⟨pl', new, hq', hsteps, hun, hnew, by rw [hcl, hun.closings, List.nil_append]⟩
  refine ⟨fun q pl' hq' => ?_, by rcases hpc' with h' | h' <;> simp [Waiting, h'],
    fun q pl' hq' c hc hrun k k' hop hk' => ?_, ⟨fun q pl hq => ?_, fun q pl' hq' hq => ?_⟩⟩
  · cases hq : w.pipelines[q]? with
    | none =>
      obtain ⟨_, _, rfl⟩ := hbuilt q pl' hq' hq
      exact chained_newPipeline _ _
    | some pl =>
      obtain ⟨pl'', new, hq'', hsteps, hun, hnew, -⟩ := hext hq
      rw [hq'] at hq''
      cases hq''
      exact (hJ q pl hq).extend hsteps (fun c hc => (hun c hc).2) fun c hc => (hnew c hc).2
  · cases hq : w.pipelines[q]? with
    | none =>
      obtain ⟨_, _, rfl⟩ := hbuilt q pl' hq' hq
      cases hc
    | some pl =>
      obtain ⟨pl'', new, hq'', hsteps, hun, -, hcl⟩ := hext hq
      rw [hq'] at hq''
      cases hq''
      rw [hsteps.log] at hc
      rcases List.mem_append.mp hc with hc | hc
      · have := (hun c hc).1
        simp [hop, Op.takes] at this
      · exact absurd (hcl ▸ hO.closed_of_running hpc hq hc hrun hop) hk'
  · obtain ⟨pl', new, hq', hsteps, -, hnew, hcl⟩ := hext hq
    exact ⟨pl', new, [], hq', hsteps.log, fun c hc => (hnew c hc).1, hcl, by simp⟩
  · obtain ⟨_, _, rfl⟩ := hbuilt q pl' hq' hq
    rfl

theorem RunStep.chain_release (h : RunStep C i ρ w ρ' w') (hs : Shape ρ) (hpc : ρ.pc = .running)
    (hst : ρ.fsm.state = .readAcknowledgements)
    (hJ : ∀ (q : Nat) (pl : Pipeline σ), w.pipelines[q]? = some pl → Chained pl)
    (hO : Owes w i ρ) : Keeps i ρ' w w' := by
  obtain ⟨p, pl, pl', new, e, hp, hpl, hw, hpln, hpc', hsteps, hnew, -⟩ :=
    h.of_releasing hs hpc hst
  have hch := hJ p pl hpl
  have hlog := hsteps.log
  have hcalls : ∀ c ∈ new ++ [⟨i, .readAcknowledgements, .barrier pl.readBarrier
      (pl.readBarrier + 1)⟩, ⟨i, .readAcknowledgements, .sendErr e⟩],
      c.run = i ∧ c.op.closes = none ∧ c.op ≠ .gatherOK ∧ c.op ≠ .gatherEOF := by
    intro c hc
    rcases List.mem_append.mp hc with hc | hc
    · rw [hnew c hc]
      simp [Op.closes]
    · simp only [List.mem_cons, List.mem_singleton, List.not_mem_nil, or_false] at hc
      rcases hc with rfl | rfl <;> simp [Op.closes]
  have hcl : pl'.closed = pl.closed := by
    rw [(hch.signals.extend (hsteps.signals hch.signals) hlog).2,
      closings_eq_nil fun c hc => (hcalls c hc).2.1, List.nil_append]
  have hch' := hch.extend hsteps (fun c hc => (hcalls c hc).2.1) fun c hc => (hcalls c hc).2.2
  refine ⟨fun q pl'' hq => ?_, ?_, fun q pl'' hq' c hc hrun k k' hop hk' => ?_,
    Grows.set hpl hw hlog (fun c hc => (hcalls c hc).1) (hcl.trans (List.nil_append _).symm)
      (by simp)⟩
  · rw [hw] at hq
    rcases getElem?_set_cases hpl hq with ⟨-, rfl⟩ | ⟨-, hq⟩
    exacts [hch', hJ q pl'' hq]
  · simp only [Waiting, hpc']
    obtain ⟨c, hc, hcl₀⟩ := hch.inOrder
    refine ⟨p, pl', hpln.trans hp, hw ▸ getElem?_set_of_some hpl _, by rw [hlog]; simp, ?_⟩
    rw [hcl, hcl₀]
    simp only [List.mem_reverse, List.mem_range]
    omega
  · rw [hw] at hq'
    rcases getElem?_set_cases hpl hq' with ⟨rfl, rfl⟩ | ⟨-, hq⟩
    · rw [hlog] at hc
      rcases List.mem_append.mp hc with hc | hc
      · rcases List.mem_append.mp hc with hc | hc
        · rw [hnew c hc] at hop
          cases hop
        · simp only [List.mem_cons, List.mem_singleton, List.not_mem_nil, or_false] at hc
          rcases hc with rfl | rfl <;> cases hop
          exact ⟨hpln.trans hp, e, .inl hpc'⟩
      · exact absurd (hcl ▸ hO.closed_of_running hpc hpl hc hrun hop) hk'
    · exact absurd (hO.closed_of_running hpc hq hc hrun hop) hk'

theorem RunStep.chain_pass (h : RunStep C i ρ w ρ' w') {k k' : Nat} {e : Option Error}
    (hpc : ρ.pc = .awaitBarrier k k' e)
    (hJ : ∀ (q : Nat) (pl : Pipeline σ), w.pipelines[q]? = some pl → Chained pl)
    (hW : Waiting w i ρ) (hO : Owes w i ρ) : Keeps i ρ' w w' := by
  obtain ⟨p, pl, hp, hpl, hk, rfl, rfl⟩ := h.of_awaitBarrier hpc
  refine ⟨hJ, ?_, fun q pl₀ hq c hc hrun k₀ k₀' hop hk₀ => ?_, Grows.refl i _⟩
  · simp only [Waiting, hpc] at hW ⊢
    obtain ⟨q, pl₀, hq, hpl₀, hb, hk'⟩ := hW
    rw [hp] at hq
    cases hq
    rw [hpl] at hpl₀
    cases hpl₀
    exact ⟨p, pl, k, hp, hpl, hb, hk', hk⟩
  · obtain ⟨hpq, e', he | he⟩ := hO q pl₀ hq c hc hrun k₀ k₀' hop hk₀ <;> rw [hpc] at he <;>
      cases he
    exact ⟨hpq, e, .inr rfl⟩

theorem RunStep.chain_close (h : RunStep C i ρ w ρ' w') {k' : Nat} {e : Option Error}
    (hpc : ρ.pc = .gathering k' e)
    (hJ : ∀ (q : Nat) (pl : Pipeline σ), w.pipelines[q]? = some pl → Chained pl)
    (hW : Waiting w i ρ) (hO : Owes w i ρ) : Keeps i ρ' w w' := by
  obtain ⟨p, pl, pl', rest, hp, hpl, hw, hpc', hsteps, hrest⟩ := h.of_gathering hpc
  simp only [Waiting, hpc] at hW
  obtain ⟨q, pl₀, k, hq, hpl₀, hb, hk', hk⟩ := hW
  rw [hp] at hq
  cases hq
  rw [hpl] at hpl₀
  cases hpl₀
  obtain ⟨hch', hcl⟩ := (hJ p pl hpl).close hsteps hrest hb hk' hk
  have hlog := hsteps.log
  have hrun : ∀ c ∈ (⟨i, .readAcknowledgements, .close k'⟩ :: rest : List Call), c.run = i :=
    fun c hc => by
      rcases List.mem_cons.mp hc with rfl | hc
      exacts [rfl, (hrest c hc).1]
  refine ⟨fun q pl'' hq => ?_, by simp [Waiting, hpc'], fun q pl'' hq' c hc hrun k₀ k₀' hop hk₀ => ?_,
    Grows.set hpl hw hlog hrun (show pl'.closed = [k'] ++ pl.closed from hcl) fun k₀ hk₀ => ?_⟩
  · rw [hw] at hq
    rcases getElem?_set_cases hpl hq with ⟨-, rfl⟩ | ⟨-, hq⟩
    exacts [hch', hJ q pl'' hq]
  · rw [hw] at hq'
    rcases getElem?_set_cases hpl hq' with ⟨rfl, rfl⟩ | ⟨hqp, hq⟩
    · rw [hlog] at hc
      rcases List.mem_append.mp hc with hc | hc
      · rcases List.mem_cons.mp hc with rfl | hc
        · cases hop
        · rcases (hrest c hc).2.2 with h' | h' | ⟨_, h'⟩ <;> rw [h'] at hop <;> cases hop
      · obtain ⟨-, e', he | he⟩ := hO _ pl hpl c hc hrun k₀ k₀' hop
          (fun hk => hk₀ (hcl ▸ List.mem_cons_of_mem _ hk)) <;> rw [hpc] at he <;> cases he
        exact absurd (hcl ▸ List.mem_cons_self _ _) hk₀
    · obtain ⟨hpq, -⟩ := hO q pl'' hq c hc hrun k₀ k₀' hop hk₀
      rw [hp] at hpq
      cases hpq
      exact absurd rfl hqp
  · rw [List.mem_singleton.mp hk₀]
    exact ⟨k, hb⟩

theorem RunStep.not_returned (h : RunStep C i ρ w ρ' w') : ρ.pc ≠ .returned := by
  intro hpc
  cases h with
  | passBarrier hpc' | readAcknowledgements _ hpc' => exact absurd (hpc.symm.trans hpc') nofun
  | _ => exact absurd (hpc.symm.trans ‹ρ.pc = .running›) nofun

theorem RunStep.chain (h : RunStep C i ρ w ρ' w') (hs : Shape ρ)
    (hJ : ∀ (q : Nat) (pl : Pipeline σ), w.pipelines[q]? = some pl → Chained pl)
    (hW : Waiting w i ρ) (hO : Owes w i ρ) : Keeps i ρ' w w' := by
  rcases hpc : ρ.pc with _ | ⟨k, k', e⟩ | ⟨k', e⟩ | _
  · by_cases hst : ρ.fsm.state = .readAcknowledgements
    · exact h.chain_release hs hpc hst hJ hO
    · exact h.chain_quiet hs hpc hst hJ hO
  · exact h.chain_pass hpc hJ hW hO
  · exact h.chain_close hpc hJ hW hO
  · exact absurd hpc h.not_returned

end Step

/-- On a replica `newReplica` made, in every interleaving of appends: every pipeline is
chained, and every append waits and owes as its point of `run` says. -/
theorem Reachable.chain {s : System σ} (hs : Reachable C NewReplica s) :
    (∀ (q : Nat) (pl : Pipeline σ), s.replica.pipelines[q]? = some pl → Chained pl) ∧
    ∀ j ρ, s.runs[j]? = some ρ → Waiting s.replica j ρ ∧ Owes s.replica j ρ := by
  refine @Reachable.eachAt σ C NewReplica
    (fun w => ∀ (q : Nat) (pl : Pipeline σ), w.pipelines[q]? = some pl → Chained pl)
    (fun w j ρ => Waiting w j ρ ∧ Owes w j ρ) (fun s h => ⟨fun q pl hq => ?_, fun j ρ hj => ?_⟩)
    (fun s i ρ ρ' w' hr hJ hI hi h => ?_) s hs
  · simp [h.2] at hq
  · rw [h.1.runs ρ (List.getElem?_mem hj)]
    exact ⟨trivial, fun q pl hq => by simp [h.2] at hq⟩
  · have hsh := (hr.mono fun _ h => h.1).shape ρ (List.getElem?_mem hi)
    obtain ⟨hJ', hW, hO, hg⟩ := h.chain hsh hJ (hI i ρ hi).1 (hI i ρ hi).2
    exact ⟨hJ', ⟨hW, hO⟩, fun j ρ₀ hj hρ₀ =>
      ⟨(hI j ρ₀ hρ₀).1.grows hg hj hJ, (hI j ρ₀ hρ₀).2.grows hg hj⟩⟩

end Gazette.Broker
