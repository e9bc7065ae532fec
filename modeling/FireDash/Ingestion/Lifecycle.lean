import FireDash.DangerousGoods.Revisions
import FireDash.Ingestion.Batches

/-! The lifecycle of an import batch over every run: it is applied at most once and a closed batch
stays as it is, but a source found missing or altered is forgotten with the transaction. -/
namespace FireDash.Ingestion

open DangerousGoods (BatchStatus Error ImportBatch StagingKey)
open Publications (Actor DatasetTypeCode DepartmentId Station)
open Tx

/-- `CANCELLED`, `FAILED`, `INVALID` and `APPLIED`. -/
def closed : BatchStatus → Bool
  | .cancelled | .failed | .invalid | .applied => true
  | _ => false

section

variable {κ : Type}

/-- The staged source of a batch is missing, or is not the one previewed. -/
def Altered (cfg : Config κ) (s : State κ) (batch : ImportBatch) : Prop :=
  ∀ payload ∈ s.staged batch.stagingKey, some (cfg.source.sha256 payload) ≠ batch.uploadSha256

/-- The attempt comes to read the staged source of the batch, and it is missing or altered. -/
def Finds (cfg : Config κ) (s : State κ) (env : DangerousGoods.Env) : Call κ → ℕ → Prop
  | .applyPreview actor id, k => k = id ∧ ∃ batch, s.source.batches.find id = some batch ∧
      env.isDepartmentAdmin actor batch.department = true ∧ batch.status = .previewReady ∧ Altered cfg s batch
  | .applyDangerousGoodsPreview actor id, k => k = id ∧ ∃ batch, s.source.batches.find id = some batch ∧
      env.isSystemAdmin actor = true ∧ batch.department = none ∧ batch.station = none ∧
      batch.domain = .dangerousGoods ∧ batch.status = .previewReady ∧ Altered cfg s batch
  | _, _ => False

/-- The batch an attempt is made on. -/
def Call.attempt : Call κ → Option ℕ
  | .applyPreview _ id | .applyDangerousGoodsPreview _ id => some id
  | _ => none

abbrev Step (κ : Type) := State κ × (DangerousGoods.Env × Call κ) × State κ

/-- The batch a step applies: that of an attempt which returns. -/
def appliedBy (cfg : Config κ) (e : Step κ) : Option ℕ :=
  match (e.2.1.2.run cfg e.2.1.1 e.1).1 with
  | .ok _ => e.2.1.2.attempt
  | .error _ => none

def AppliedOnce (cfg : Config κ) (trace : List (Step κ)) : Prop := (trace.filterMap (appliedBy cfg)).Nodup

/-- No step changes the status of a closed batch. -/
def ClosedStays (trace : List (Step κ)) : Prop :=
  ∀ e ∈ trace, ∀ id b, e.1.source.batches.find id = some b → closed b.status = true →
    ∃ b', e.2.2.source.batches.find id = some b' ∧ b'.status = b.status

/-- Once an attempt has found the source missing or altered the batch is failed for good, and no
later attempt applies it. -/
def DurablyFailed (cfg : Config κ) (trace : List (Step κ)) : Prop :=
  ∀ before e after id, trace = before ++ e :: after → Finds cfg e.1 e.2.1.1 e.2.1.2 id →
    (∀ e' ∈ e :: after, ∃ b, e'.2.2.source.batches.find id = some b ∧ b.status = .failed) ∧
      ∀ e' ∈ after, appliedBy cfg e' ≠ some id

structure Lifecycle (cfg : Config κ) (trace : List (Step κ)) : Prop where
  once : AppliedOnce cfg trace
  closed : ClosedStays trace
  failed : DurablyFailed cfg trace

/-! ### The services -/

variable {cfg : Config κ} {env : DangerousGoods.Env} {s t : State κ} {actor : Actor} {id : ℕ} {batch : ImportBatch}

/-- Only a ready preview changes its status. -/
def Moves (s t : State κ) : Prop :=
  s.source.batches.Evolve (fun b b' => b.status ≠ .previewReady → b'.status = b.status) (fun _ => True) t.source.batches

/-- A ready preview with the source it was previewed on has become the given status. -/
structure Closes (s t : State κ) (id : ℕ) (status : BatchStatus) : Prop where
  ready : ∃ b, s.source.batches.find id = some b ∧ b.status = .previewReady
  batches : ∃ f : ImportBatch → ImportBatch, (∀ b, (f b).status = status) ∧
    t.source.batches = s.source.batches.modify id f

theorem Closes.moves {status : BatchStatus} (h : Closes s t id status) : Moves s t := by
  obtain ⟨b, hb, hready⟩ := h.ready
  obtain ⟨f, -, hbatches⟩ := h.batches
  unfold Moves
  rw [hbatches]
  apply Table.Evolve.modify
  · exact fun _ _ => rfl
  · intro a ha hne
    rw [hb] at ha
    cases ha
    exact absurd hready hne

theorem Closes.find {status : BatchStatus} (h : Closes s t id status) :
    ∃ b, t.source.batches.find id = some b ∧ b.status = status := by
  obtain ⟨b, hb, -⟩ := h.ready
  obtain ⟨f, hf, hbatches⟩ := h.batches
  refine ⟨f b, ?_, hf b⟩
  rw [hbatches, Table.find_modify, if_pos rfl, hb]
  rfl

theorem wp_readSource {Q : List UInt8 → State κ → Prop} {E : Error → State κ → Prop}
    (hQ : ¬Altered cfg s batch → ∀ payload, Q payload s) (hE : ∀ e t, E e t) :
    wp (readSource cfg env id batch) Q E s := by
  simp only [readSource, wp_bind, wp_get]
  cases hstaged : s.staged batch.stagingKey with
  | none =>
    simp only [sourceCall, DangerousGoods.failBatch, wp_bind, wp_zoom, wp_modify, wp_raise]
    exact hE _ _
  | some payload =>
    dsimp only
    by_cases hsha : some (cfg.source.sha256 payload) = batch.uploadSha256
    · rw [if_neg (not_not.mpr hsha)]
      refine hQ (fun halt => ?_) payload
      exact halt payload (by rw [hstaged]; rfl) hsha
    · rw [if_pos hsha]
      simp only [sourceCall, DangerousGoods.failBatch, wp_bind, wp_zoom, wp_modify, wp_raise]
      exact hE _ _

/-- The branch of a domain leaves the batches alone. -/
theorem wp_applyBranch {payload : List UInt8} {Q : Applied → State κ → Prop} {E : Error → State κ → Prop}
    (hQ : ∀ applied u, u.source.batches = s.source.batches → Q applied u) (hE : ∀ e t, E e t) :
    wp (applyBranch cfg env actor batch payload) Q E s := by
  unfold applyBranch
  rw [wp_ite, wp_raise]
  refine ⟨fun _ => hE _ _, fun _ => ?_⟩
  simp only [rowsCall, wp_zoom]
  apply wp_of_forall
  · intro applied w _
    exact hQ applied _ rfl
  · intro e w _
    exact hE e _

theorem wp_markScope {department : Option DepartmentId} {scope : DatasetTypeCode × Option Station}
    {Q : Unit → State κ → Prop} {E : Error → State κ → Prop}
    (hQ : ∀ u : State κ, u.source.batches = s.source.batches → Q () u) (hE : ∀ e t, E e t) :
    wp (markScope cfg env actor department scope) Q E s := by
  simp only [markScope, sourceCall, wp_bind, wp_zoom, wp_pure, DangerousGoods.wp_publicationCall]
  apply wp_of_forall
  · intro _ _ _
    exact hQ _ rfl
  · intro _ _ _
    exact hE _ _

theorem wp_applyPreview : wp (applyPreview cfg env actor id)
    (fun _ t => Closes s t id .applied ∧ ∀ k, ¬Finds cfg s env (.applyPreview actor id) k) (fun _ t => t = s) s := by
  simp only [applyPreview, wp_atomic, wp_bind, wp_get, wp_require, wp_ensure, implies_true, and_true]
  intro batch hbatch _ hready
  refine wp_readSource (fun hsource payload => ?_) fun _ _ => trivial
  refine wp_applyBranch (fun applied u hu => ?_) fun _ _ => trivial
  have hloop : wp (forEach (markScope cfg env actor batch.department) applied.scopes)
      (fun _ v => v.source.batches = s.source.batches) (fun _ _ => True) u := by
    refine wp_forEach (fun _ (v : State κ) => v.source.batches = s.source.batches) applied.scopes hu ?_
    intro scope _ v hv
    exact wp_markScope (fun w hw => hw.trans hv) fun _ _ => trivial
  refine wp_mono hloop (fun _ v hv => ?_) fun _ _ h => h
  simp only [sourceCall, wp_zoom, wp_modify]
  refine ⟨⟨⟨batch, hbatch, hready⟩, _, ?_, congrArg (Table.modify · id _) hv⟩, ?_⟩
  · exact fun _ => rfl
  · rintro k ⟨-, b, hb, -, -, halt⟩
    rw [hbatch] at hb
    cases hb
    exact hsource halt

theorem wp_applyDangerousGoodsPreview : wp (applyDangerousGoodsPreview cfg env actor id)
    (fun _ t => Closes s t id .applied ∧ ∀ k, ¬Finds cfg s env (.applyDangerousGoodsPreview actor id) k)
    (fun _ t => t = s) s := by
  simp only [applyDangerousGoodsPreview, sourceCall, DangerousGoods.applyDangerousGoodsPreview,
    DangerousGoods.requireSystemAdmin, wp_zoom, wp_atomic, wp_bind, wp_get, wp_require, wp_ensure, implies_true, and_true]
  intro _ batch hbatch hcheck
  obtain ⟨-, -, -, hready⟩ := hcheck
  rw [hbatch, Option.bind_some]
  refine DangerousGoods.wp_readPreview (fun payload summary hstaged hsha => ?_) fun _ _ => trivial
  have hsource : ∀ k, ¬Finds cfg s env (.applyDangerousGoodsPreview actor id) k := by
    rintro k ⟨-, b, hb, -, -, -, -, -, halt⟩
    rw [hbatch] at hb
    cases hb
    exact halt payload (by rw [hstaged]; rfl) hsha.symm
  simp only [DangerousGoods.lockedDangerousGoodsScope, wp_bind, DangerousGoods.wp_publicationCall, wp_pure]
  apply wp_of_forall
  · intro scope db _ _
    simp only [DangerousGoods.createRevision, wp_ite, wp_bind, wp_get, wp_ensure, wp_modify,
      DangerousGoods.wp_publicationCall]
    refine ⟨fun _ => ⟨⟨⟨batch, hbatch, hready⟩, _, ?_, rfl⟩, hsource⟩, fun _ => ⟨fun _ => ?_, fun _ => trivial⟩⟩
    · exact fun _ => rfl
    · apply wp_of_forall
      · intro _ _ _
        refine ⟨⟨⟨batch, hbatch, hready⟩, _, ?_, rfl⟩, hsource⟩
        exact fun _ => rfl
      · intro _ _ _
        trivial
  · intro _ _ _
    trivial

theorem wp_cancelPreview : wp (cancelPreview env actor id : Service κ Unit) (fun _ t => Closes s t id .cancelled)
    (fun _ t => Moves s t) s := by
  simp only [cancelPreview, sourceCall, DangerousGoods.cancelPreview, wp_bind, wp_zoom, wp_atomic, wp_get, wp_require,
    wp_ensure, wp_modify]
  have hsame : Moves s s := Table.Evolve.refl fun _ _ => rfl
  refine ⟨fun batch hbatch => ⟨fun _ => ⟨fun hready => ?_, fun _ => hsame⟩, fun _ => hsame⟩, fun _ => hsame⟩
  have hcloses : Closes s { s with source := { s.source with batches := s.source.batches.modify id fun row =>
      { row with status := .cancelled, cancelledAt := some env.publications.now } } } id .cancelled := by
    refine ⟨⟨batch, hbatch, hready⟩, _, ?_, rfl⟩
    exact fun _ => rfl
  exact ⟨fun _ _ => ⟨hcloses.ready, hcloses.batches⟩, fun _ => hcloses.moves⟩

theorem wp_createDangerousGoodsPreview {filename : String} {payload : List UInt8} {stored : Except Error Unit} :
    wp (createDangerousGoodsPreview cfg env actor filename payload stored) (fun _ t => Moves s t) (fun _ t => Moves s t)
      s := by
  have hsame : Moves s s := Table.Evolve.refl fun _ _ => rfl
  have hinsert : ∀ row : ImportBatch,
      s.source.batches.Evolve (fun b b' => b.status ≠ .previewReady → b'.status = b.status) (fun _ => True)
        (s.source.batches.insert row) := fun row => Table.Evolve.insert (fun _ _ => rfl) trivial
  simp only [createDangerousGoodsPreview, sourceCall, DangerousGoods.createDangerousGoodsPreview,
    DangerousGoods.requireSystemAdmin, wp_bind, wp_zoom, wp_get, wp_ensure, wp_require, wp_whenever, wp_modify]
  refine ⟨fun _ => ?_, fun _ => hsame⟩
  split
  · simp only [wp_bind, wp_modify, wp_pure]
    exact ⟨fun _ _ => ⟨fun _ => hinsert _, fun _ => hinsert _⟩, fun _ => hinsert _⟩
  · exact hsame
  · split
    · simp only [wp_bind, wp_modify, wp_pure]
      exact ⟨fun _ _ => ⟨fun _ => hinsert _, fun _ => hinsert _⟩, fun _ => hinsert _⟩
    · simp only [wp_atomic, wp_bind, wp_ensure, DangerousGoods.lockedDangerousGoodsScope,
        DangerousGoods.wp_publicationCall, wp_pure]
      apply wp_of_forall
      · intro scope db _
        refine ⟨fun _ => ?_, fun _ => hsame⟩
        cases stored with
        | error e => exact hsame
        | ok _ =>
          simp only [wp_ok, wp_modify]
          exact ⟨fun _ _ => ⟨fun _ => hinsert _, fun _ => hinsert _⟩, fun _ => hinsert _⟩
      · intro _ _ _
        exact hsame

/-! ### Steps -/

/-- What a call does to the batches, by how it ends. -/
theorem Call.spec (call : Call κ) : wp (call.run cfg env)
    (fun _ t => Moves s t ∧ ∀ k, call.attempt = some k → Closes s t k .applied ∧ ∀ j, ¬Finds cfg s env call j)
    (fun _ t => Moves s t ∧ (call.attempt ≠ none → t = s)) s := by
  have hsame : Moves s s := Table.Evolve.refl fun _ _ => rfl
  cases call with
  | applyPreview actor id =>
    refine wp_mono wp_applyPreview (fun _ t ht => ⟨ht.1.moves, fun k hk => ?_⟩) fun _ t ht => ?_
    · cases hk
      exact ht
    · rw [ht]
      exact ⟨hsame, fun _ => rfl⟩
  | applyDangerousGoodsPreview actor id =>
    refine wp_mono wp_applyDangerousGoodsPreview (fun _ t ht => ⟨ht.1.moves, fun k hk => ?_⟩) fun _ t ht => ?_
    · cases hk
      exact ht
    · rw [ht]
      exact ⟨hsame, fun _ => rfl⟩
  | cancelPreview actor id =>
    exact wp_mono wp_cancelPreview (fun _ t ht => ⟨ht.moves, nofun⟩) fun _ t ht => ⟨ht, fun h => absurd rfl h⟩
  | createDangerousGoodsPreview actor filename payload stored =>
    exact wp_mono wp_createDangerousGoodsPreview (fun _ t ht => ⟨ht, nofun⟩) fun _ t ht => ⟨ht, fun h => absurd rfl h⟩
  | createPreview batch => exact ⟨Table.Evolve.insert (fun _ _ => rfl) trivial, nofun⟩
  | editFiles staged => exact ⟨hsame, nofun⟩
  | editRows rows publications => exact ⟨hsame, nofun⟩

theorem moves_of_step {a : DangerousGoods.Env × Call κ} (h : (system cfg).step s a t) : Moves s t := by
  obtain ⟨-, rfl⟩ := h
  exact exec_of_wp (wp_mono (Call.spec a.2) (fun _ _ h => h.1) fun _ _ h => h.1)

theorem closes_of_appliedBy {a : DangerousGoods.Env × Call κ} (h : (system cfg).step s a t)
    (hid : appliedBy cfg (s, a, t) = some id) : Closes s t id .applied := by
  obtain ⟨-, rfl⟩ := h
  have hspec : wp (a.2.run cfg a.1) _ _ s := Call.spec a.2
  unfold appliedBy at hid
  unfold exec
  cases hrun : a.2.run cfg a.1 s with
  | mk r t =>
    rw [hrun] at hid
    cases r with
    | error e => cases hid
    | ok _ => exact ((hspec.of_ok hrun).2 id hid).1

theorem ready_of_finds {call : Call κ} (hf : Finds cfg s env call id) : call.attempt = some id ∧
    ∃ b, s.source.batches.find id = some b ∧ b.status = .previewReady := by
  cases call with
  | applyPreview actor id' =>
    obtain ⟨rfl, b, hb, -, hready, -⟩ := hf
    exact ⟨rfl, b, hb, hready⟩
  | applyDangerousGoodsPreview actor id' =>
    obtain ⟨rfl, b, hb, -, -, -, -, hready, -⟩ := hf
    exact ⟨rfl, b, hb, hready⟩
  | _ => exact hf.elim

/-- The mark of a failed batch is undone by the raise that follows it. -/
theorem unchanged_of_finds {a : DangerousGoods.Env × Call κ} (h : (system cfg).step s a t)
    (hf : Finds cfg s a.1 a.2 id) : t = s := by
  obtain ⟨-, rfl⟩ := h
  have hspec : wp (a.2.run cfg a.1) _ _ s := Call.spec a.2
  have hattempt := (ready_of_finds hf).1
  unfold exec
  cases hrun : a.2.run cfg a.1 s with
  | mk r t =>
    cases r with
    | ok _ => exact absurd hf (((hspec.of_ok hrun).2 id hattempt).2 id)
    | error e =>
      have hne : a.2.attempt ≠ none := by
        rw [hattempt]
        exact Option.some_ne_none id
      exact (hspec.of_error hrun).2 hne

/-! ### Runs -/

section

variable {trace : List (Step κ)}

theorem applied_of_run (h : (system cfg).Run s trace t) : AppliedOnce cfg trace ∧
    ∀ id ∈ trace.filterMap (appliedBy cfg), ∃ b, t.source.batches.find id = some b ∧ b.status = .applied := by
  induction h with
  | start _ => exact ⟨List.nodup_nil, by simp⟩
  | @next u v trace a _ hs ih =>
    obtain ⟨honce, happlied⟩ := ih
    have hmoves := moves_of_step hs
    have hkept : ∀ id ∈ trace.filterMap (appliedBy cfg),
        ∃ b, v.source.batches.find id = some b ∧ b.status = .applied := by
      intro id hid
      obtain ⟨b, hb, hstatus⟩ := happlied id hid
      obtain ⟨b', hb', hsame⟩ := hmoves.rows hb
      exact ⟨b', hb', (hsame (by rw [hstatus]; nofun)).trans hstatus⟩
    unfold AppliedOnce
    rw [List.filterMap_append]
    cases hby : appliedBy cfg (u, a, v) with
    | none =>
      simp only [List.filterMap_cons, hby, List.filterMap_nil, List.append_nil]
      exact ⟨honce, hkept⟩
    | some id =>
      have hcloses := closes_of_appliedBy hs hby
      simp only [List.filterMap_cons, hby, List.filterMap_nil, List.nodup_append, List.mem_append, List.mem_singleton]
      refine ⟨⟨honce, List.nodup_singleton id, ?_⟩, ?_⟩
      · rintro k hk _ rfl rfl
        -- A batch an earlier step applied is no longer ready.
        obtain ⟨b, hb, hstatus⟩ := happlied k hk
        obtain ⟨b', hb', hready⟩ := hcloses.ready
        rw [hb] at hb'
        cases hb'
        rw [hstatus] at hready
        cases hready
      · rintro k (hk | rfl)
        · exact hkept k hk
        · exact hcloses.find

theorem closedStays_of_run (h : (system cfg).Run s trace t) : ClosedStays trace := by
  intro e he id b hb hclosed
  obtain ⟨b', hb', hsame⟩ := (moves_of_step (h.mem_step he).2).rows hb
  refine ⟨b', hb', hsame fun hready => ?_⟩
  rw [hready] at hclosed
  cases hclosed

/-- A run in which an attempt finds the source missing or altered leaves the batch ready. -/
theorem not_finds_of_durablyFailed (h : (system cfg).Run s trace t) (hfailed : DurablyFailed cfg trace) {e : Step κ}
    (he : e ∈ trace) : ¬Finds cfg e.1 e.2.1.1 e.2.1.2 id := by
  intro hf
  obtain ⟨before, after, htrace⟩ := List.append_of_mem he
  obtain ⟨b, hb, hstatus⟩ := (hfailed before e after id htrace hf).1 e List.mem_cons_self
  obtain ⟨b', hb', hready⟩ := (ready_of_finds hf).2
  rw [unchanged_of_finds (h.mem_step he).2 hf, hb'] at hb
  cases hb
  rw [hready] at hstatus
  cases hstatus

/-- A run keeps the lifecycle of its batches exactly if no attempt finds a staged source missing or
altered: applications and closed batches are always in order, but no failure is recorded. -/
theorem lifecycle_iff_sources_found (h : (system cfg).Run s trace t) :
    Lifecycle cfg trace ↔ ∀ e ∈ trace, ∀ id, ¬Finds cfg e.1 e.2.1.1 e.2.1.2 id := by
  constructor
  · intro hl e he id
    exact not_finds_of_durablyFailed h hl.failed he
  · intro hno
    refine ⟨(applied_of_run h).1, closedStays_of_run h, ?_⟩
    intro before e after id htrace hf
    exact absurd hf (hno e (by rw [htrace]; simp) id)

/-- The state after a call. -/
def after (cfg : Config κ) (s : State κ) (a : DangerousGoods.Env × Call κ) : State κ := exec (a.2.run cfg a.1) s

theorem run_steps {calls : List (DangerousGoods.Env × Call κ)} (s : State κ) (hallowed : ∀ a ∈ calls, a.2.Allowed) :
    (system cfg).Run s (Machine.steps (after cfg) s calls) (calls.foldl (after cfg) s) := by
  have hstart : (system cfg).Run s [] s := .start trivial
  refine hstart.steps fun e he => ?_
  obtain ⟨hmem, hnext⟩ := Machine.of_mem_steps he
  exact ⟨hallowed e.2.1 hmem, hnext⟩

end

/-- A curated batch, by its columns an attempt reads. -/
theorem finds_of_row {key : StagingKey} (hadmin : env.isSystemAdmin actor = true)
    (hrow : (s.source.batches.find id).map (fun b => (b.stagingKey, b.department, b.station, b.domain, b.status)) =
      some (key, none, none, .dangerousGoods, .previewReady)) (hstaged : s.staged key = none) :
    Finds cfg s env (.applyDangerousGoodsPreview actor id) id := by
  obtain ⟨b, hb, hsame⟩ := Option.map_eq_some_iff.mp hrow
  simp only [Prod.mk.injEq] at hsame
  obtain ⟨hkey, hdepartment, hstation, hdomain, hready⟩ := hsame
  refine ⟨rfl, b, hb, hadmin, hdepartment, hstation, hdomain, hready, ?_⟩
  intro payload hpayload
  rw [hkey, hstaged] at hpayload
  cases hpayload

theorem not_finds_of_row (cfg : Config κ) (s : State κ) (key : StagingKey) (payload : List UInt8)
    (hrow : (s.source.batches.find id).map (fun b => (b.stagingKey, b.uploadSha256)) =
      some (key, some (cfg.source.sha256 payload))) (hstaged : s.staged key = some payload) {k : ℕ} :
    ¬Finds cfg s env (.applyDangerousGoodsPreview actor id) k := by
  rintro ⟨-, b, hb, -, -, -, -, -, halt⟩
  rw [hb] at hrow
  obtain ⟨hkey, hsha⟩ := Prod.mk.inj (Option.some.inj hrow)
  apply halt payload
  · rw [hkey, hstaged]
    rfl
  · exact hsha.symm

end

/-! ### A file that is away for one attempt -/

def sampleConfig : Config Unit where
  source := DangerousGoods.sampleConfig
  branch _ _ _ _ := pure {}

def sampleFile : List UInt8 := DangerousGoods.sampleFile "1"

def preview : DangerousGoods.Env × Call Unit :=
  (DangerousGoods.sampleEnv 0, .createDangerousGoodsPreview 1 "goods.json" sampleFile (.ok ()))

def attempt (now : Publications.Time) : DangerousGoods.Env × Call Unit :=
  (DangerousGoods.sampleEnv now, .applyDangerousGoodsPreview 1 0)

def editFiles (now : Publications.Time) (file : Option (List UInt8)) : DangerousGoods.Env × Call Unit :=
  (DangerousGoods.sampleEnv now, .editFiles fun _ => file)

def initial : State Unit := { rows := () }

def previewed : State Unit := after sampleConfig initial preview

/-- A preview whose file stays in place is applied within its lifecycle. -/
theorem applied_lifecycle :
    (Machine.steps (after sampleConfig) initial [preview, attempt 1]).filterMap (appliedBy sampleConfig) = [0] ∧
      Lifecycle sampleConfig (Machine.steps (after sampleConfig) initial [preview, attempt 1]) := by
  have hrun : (system sampleConfig).Run initial (Machine.steps (after sampleConfig) initial [preview, attempt 1]) _ :=
    run_steps initial (by simp [preview, attempt, Call.Allowed])
  refine ⟨by decide +kernel, (lifecycle_iff_sources_found hrun).mpr ?_⟩
  have hrow : (previewed.source.batches.find 0).map (fun b => (b.stagingKey, b.uploadSha256)) =
      some (.batch 0, some (sampleConfig.source.sha256 sampleFile)) := by decide +kernel
  have hstaged : previewed.staged (.batch 0) = some sampleFile := by decide +kernel
  intro e he id
  simp only [Machine.steps, List.mem_cons, List.not_mem_nil, or_false] at he
  generalize hu : after sampleConfig initial preview = u at he
  have hno : ¬Finds sampleConfig u (DangerousGoods.sampleEnv 1) (.applyDangerousGoodsPreview 1 0) id := by
    rw [← hu]
    exact not_finds_of_row sampleConfig previewed (.batch 0) sampleFile hrow hstaged
  rcases he with rfl | rfl
  · exact not_false
  · exact hno

def forgotten : List (DangerousGoods.Env × Call Unit) :=
  [preview, editFiles 1 none, attempt 2, editFiles 3 (some sampleFile), attempt 4]

def missing : State Unit := [preview, editFiles 1 none].foldl (after sampleConfig) initial

/-- The attempt that misses the file leaves its batch ready, and a later one applies it. -/
theorem missing_file_forgotten :
    (system sampleConfig).Run initial (Machine.steps (after sampleConfig) initial forgotten)
      (forgotten.foldl (after sampleConfig) initial) ∧
    (Machine.steps (after sampleConfig) initial forgotten).map (fun e => (e.2.2.source.batches.find 0).map (·.status)) =
      [some .previewReady, some .previewReady, some .previewReady, some .previewReady, some .applied] ∧
    ¬Lifecycle sampleConfig (Machine.steps (after sampleConfig) initial forgotten) := by
  have hrun : (system sampleConfig).Run initial (Machine.steps (after sampleConfig) initial forgotten)
      (forgotten.foldl (after sampleConfig) initial) :=
    run_steps initial (by simp [forgotten, preview, attempt, editFiles, Call.Allowed])
  refine ⟨hrun, by decide +kernel, fun hl => ?_⟩
  have hrow : (missing.source.batches.find 0).map
      (fun b => (b.stagingKey, b.department, b.station, b.domain, b.status)) =
        some (.batch 0, none, none, .dangerousGoods, .previewReady) := by decide +kernel
  have hstaged : missing.staged (.batch 0) = none := by decide +kernel
  have hmem : (missing, attempt 2, after sampleConfig missing (attempt 2)) ∈
      Machine.steps (after sampleConfig) initial forgotten := Machine.mem_steps initial _ (attempt 2) _
  have hfinds : Finds sampleConfig missing (DangerousGoods.sampleEnv 2) (.applyDangerousGoodsPreview 1 0) 0 :=
    finds_of_row rfl hrow hstaged
  exact not_finds_of_durablyFailed hrun hl.failed hmem hfinds

end FireDash.Ingestion
