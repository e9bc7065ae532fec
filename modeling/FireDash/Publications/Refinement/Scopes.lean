import Mathlib.Data.List.MinMax
import Mathlib.Order.Nat
import FireDash.Publications.Lifecycle

/-! Specifications of the helpers that read and write a locked scope: what each returns,
which row it leaves, and the moves it consists of. -/
namespace FireDash.Publications

open Tx

variable {cfg : Config} {env : Env} {l : Licence} {purge : Prop} {db : Db}

/-- Why a scope cannot be locked. -/
def Db.Unlockable (db : Db) (target : Target) : Prop :=
  (target.datasetTypeCode.isFileDataset = true ∧ target.department = none) ∨
    (∃ e, scopeFilter target = .error e) ∨
    ∃ key, scopeFilter target = .ok key ∧ ∀ i s, db.scopes.find i = some s → s.key ≠ key

theorem wp_lockedScope_unlockable {target : Target} {Q : ScopeId × Scope → Db → Prop} {E : Error → Db → Prop}
    (hQ : ∀ i s, db.scopes.find i = some s → scopeFilter target = .ok s.key → Q (i, s) db)
    (hE : ∀ e, db.Unlockable target → E e db) : wp (lockedScope target) Q E db := by
  simp only [lockedScope, wp_bind, wp_ofExcept, wp_get, wp_require]
  refine ⟨fun _ _ => ⟨fun key hkey => ⟨fun r hr => ?_, fun hnone => ?_⟩, fun e he => ?_⟩, fun e he => ?_⟩
  · obtain ⟨hfind, hk⟩ := Table.first_eq_some (i := r.1) (a := r.2) hr
    have hk : r.2.key = key := by simpa using hk
    exact hQ r.1 r.2 hfind (by rw [hkey, hk])
  · refine hE _ (.inr (.inr ⟨key, hkey, fun i s hs => ?_⟩))
    simpa using Table.first_eq_none.mp hnone i s hs
  · exact hE e (.inr (.inl ⟨e, he⟩))
  · refine hE e (.inl ?_)
    unfold lockFileScope at he
    split at he
    · rename_i hfile
      exact ⟨hfile.1, Option.isNone_iff_eq_none.mp hfile.2⟩
    · cases he

theorem wp_lockedScope {target : Target} {Q : ScopeId × Scope → Db → Prop} {E : Error → Db → Prop}
    (hQ : ∀ i s, db.scopes.find i = some s → scopeFilter target = .ok s.key → Q (i, s) db)
    (hE : ∀ e, E e db) : wp (lockedScope target) Q E db :=
  wp_lockedScope_unlockable hQ fun e _ => hE e

theorem scopeFilter_target {target : Target} {key : ScopeKey} (h : scopeFilter target = .ok key) :
    key.target = target := by
  unfold scopeFilter at h
  cases hr : registeredScopeType target.datasetTypeCode with
  | error e => simp [hr, bind, Except.bind] at h
  | ok t =>
    simp only [hr, bind, Except.bind, pure, Except.pure, Except.ok.injEq] at h
    rw [← h]

/-- The scope locked for a job is the job's own. -/
theorem Inv.locked_job {c : Core} (h : Inv c) {j : JobId} {a : Job} {i : ScopeId} {s : Scope}
    (hj : c.jobs.find j = some a) (hs : c.scopes.find i = some s)
    (hf : scopeFilter a.key.target = .ok s.key) : a.scopeState = i ∧ a.key = s.key := by
  obtain ⟨s', hs', hk⟩ := h.job_scope hj
  have hkey : s'.key = s.key := h.scope_filter hs' (by rw [hk, hf])
  exact ⟨h.scope_key hs' hs hkey, by rw [← hk, hkey]⟩

/-- The scope locked for a publication is the publication's own. -/
theorem Inv.locked_publication {c : Core} (h : Inv c) {p : PublicationId} {pub : Publication} {i : ScopeId} {s : Scope}
    (hp : c.publications.find p = some pub) (hs : c.scopes.find i = some s)
    (hf : scopeFilter pub.key.target = .ok s.key) : pub.scopeState = i ∧ pub.key = s.key := by
  obtain ⟨s', hs', hk⟩ := h.publication_scope hp
  have hkey : s'.key = s.key := h.scope_filter hs' (by rw [hk, hf])
  exact ⟨h.scope_key hs' hs hkey, by rw [← hk, hkey]⟩

/-- The fingerprint a source read returns is that of the snapshot it returns. -/
theorem currentSource_fingerprint {target : Target} {snapshot : Snapshot} {d : Digest}
    (h : currentSource cfg env target = .ok (snapshot, d)) : d = sourceFingerprintForPayload cfg snapshot := by
  simp only [currentSource, bind, Except.bind, pure, Except.pure] at h
  split at h
  · cases h
  · split at h
    · cases h
    · obtain ⟨rfl, rfl⟩ := Prod.mk.inj (Except.ok.inj h)
      rfl

/-- What the source builder of a dataset needs of its scope and of the canonical tables. -/
def sourceAvailable (canonical : Canonical) (target : Target) : Bool :=
  match target.datasetTypeCode with
  | .departmentFiles | .stationFiles => target.department.isSome
  | .dangerousGoods => target.department.isNone ∧ target.station.isNone ∧ canonical.dangerousGoods ≠ []
  | .departmentHydrants | .departmentFirePlans | .departmentKlgvPlans => target.station.isNone
  | .stationPersonnel => ∃ station ∈ target.station, target.department = some station.departmentId
  | .departmentPhonebook | .stationPhonebook =>
    ∀ station ∈ target.station, target.department = some station.departmentId
  | .testDepartmentIncidents | .testSystemDataset => true
  | .unregistered _ => false

theorem latestRevision_eq_none {revisions : List DatasetSourceRevision} :
    latestRevision revisions = none ↔ revisions = [] := by
  cases revisions with
  | nil => simp [latestRevision]
  | cons r rest => cases h : latestRevision rest <;> simp [latestRevision, h]

theorem buildSourcePayload_ok_iff {definition : DatasetTypeDefinition} {target : Target}
    (h : definition.code = target.datasetTypeCode) :
    (∃ snapshot, buildSourcePayload env definition target = .ok snapshot) ↔
      sourceAvailable env.canonical target = true := by
  obtain ⟨department, station, code⟩ := target
  unfold buildSourcePayload sourceAvailable
  rw [h]
  cases code with
  | departmentFiles | stationFiles => cases department <;> cases station <;> simp [fileLibrarySource]
  | dangerousGoods =>
    have hrev : latestRevision env.canonical.dangerousGoods = none ↔ _ := latestRevision_eq_none
    cases department <;> cases station <;> cases hl : latestRevision env.canonical.dangerousGoods <;>
      simp_all [dangerousGoodsSourcePayload, bind, Except.bind, pure, Except.pure, throw, throwThe, MonadExceptOf.throw]
  | departmentHydrants | departmentFirePlans | departmentKlgvPlans =>
    cases station <;> simp [hydrantSourcePayload, firePlanSourcePayload, klgvSourcePayload, bind, Except.bind, pure,
      Except.pure, throw, throwThe, MonadExceptOf.throw]
  | stationPersonnel =>
    cases station with
    | none => simp [personnelSourcePayload, personnelStation, bind, Except.bind]
    | some station =>
      by_cases hd : department = some station.departmentId <;>
        simp [personnelSourcePayload, personnelStation, hd, bind, Except.bind, pure, Except.pure]
  | departmentPhonebook | stationPhonebook =>
    cases station with
    | none => simp [phonebookSourcePayload, phonebookEntries, bind, Except.bind, pure, Except.pure]
    | some station =>
      by_cases hd : department = some station.departmentId <;>
        simp [phonebookSourcePayload, phonebookEntries, hd, bind, Except.bind, pure, Except.pure, throw, throwThe,
          MonadExceptOf.throw]
  | testDepartmentIncidents | testSystemDataset | unregistered name => simp

theorem currentSource_ok_iff {target : Target} :
    (∃ r, currentSource cfg env target = .ok r) ↔ sourceAvailable env.canonical target = true := by
  cases hdef : getDatasetDefinition target.datasetTypeCode with
  | error e =>
    obtain ⟨name, hcode⟩ := getDatasetDefinition_eq_error.mp ⟨e, hdef⟩
    simp [currentSource, sourceAvailable, hcode, getDatasetDefinition, bind, Except.bind]
  | ok definition =>
    rw [← buildSourcePayload_ok_iff (getDatasetDefinition_code hdef)]
    simp only [currentSource, hdef, bind, Except.bind, pure, Except.pure]
    cases buildSourcePayload env definition target <;> simp
/-- The scope object after its source was read. -/
def Scope.refreshed (s : Scope) (snapshot : Snapshot) : Scope :=
  { s with sourceRevision := refreshedRevision s snapshot }

/-- Replace a scope row. -/
def Db.setScope (db : Db) (i : ScopeId) (s : Scope) : Db := db.modifyScope i fun _ => s

theorem Db.modifyScope_eq_setScope {i : ScopeId} {s : Scope} {f : Scope → Scope}
    (h : db.scopes.find i = some s) : db.modifyScope i f = db.setScope i (f s) := by
  simp only [setScope, modifyScope]
  rw [Table.modify_congr (g := fun _ => f s) h rfl]

theorem Db.setScope_self {i : ScopeId} {s : Scope} (h : db.scopes.find i = some s) : db.setScope i s = db := by
  simp only [setScope, modifyScope]
  rw [Table.modify_eq_self h rfl]

@[simp] theorem Db.setScope_setScope (i : ScopeId) (s t : Scope) :
    (db.setScope i s).setScope i t = db.setScope i t := by
  simp only [setScope, modifyScope, Table.modify_modify]
  rfl

theorem Db.find_setScope {i : ScopeId} {s : Scope} (h : db.scopes.find i = some s) (t : Scope) :
    (db.setScope i t).scopes.find i = some t := by
  simp [setScope, modifyScope, h]

@[simp] theorem Db.setScope_publications (i : ScopeId) (s : Scope) :
    (db.setScope i s).publications = db.publications := rfl

@[simp] theorem Db.setScope_jobs (i : ScopeId) (s : Scope) : (db.setScope i s).jobs = db.jobs := rfl

@[simp] theorem Db.setScope_onCommit (i : ScopeId) (s : Scope) : (db.setScope i s).onCommit = db.onCommit := rfl

theorem wp_currentSourceState {i : ScopeId} {s : Scope} (hs : db.scopes.find i = some s)
    {Q : Snapshot × Digest × Scope → Db → Prop} {E : Error → Db → Prop}
    (hQ : ∀ snapshot d, currentSource cfg env s.key.target = .ok (snapshot, d) →
      Q (snapshot, d, s.refreshed snapshot) (db.setScope i (s.refreshed snapshot)))
    (hE : ∀ e, currentSource cfg env s.key.target = .error e → E e db) :
    wp (currentSourceState cfg env i s) Q E db := by
  simp only [currentSourceState, wp_bind, wp_ofExcept, wp_whenever, wp_modify, wp_pure]
  refine ⟨fun r hr => ⟨fun _ => ?_, fun he => ?_⟩, hE⟩
  · rw [Db.modifyScope_eq_setScope hs]
    exact hQ r.1 r.2 hr
  · have h := hQ r.1 r.2 hr
    rw [not_not] at he
    have hsame : s.refreshed r.1 = s := by rw [Scope.refreshed, ← he]
    rw [hsame, Db.setScope_self hs] at h
    change Q (r.1, r.2, s.refreshed r.1) db
    rwa [hsame]

/-- What cancelling redundant pending work of a scope leaves alone. -/
structure Cancels (cfg : Config) (l : Licence) (i : ScopeId) (db db' : Db) : Prop where
  steps : Steps cfg l db.core db'.core
  scopes : db'.scopes = db.scopes
  onCommit : db'.onCommit = db.onCommit
  publications : ∀ {q r}, db.publications.find q = some r → r.status ≠ .staged →
    db'.publications.find q = some r
  jobs : ∀ {k a}, db.jobs.find k = some a → a.status ≠ .pending ∨ a.scopeState ≠ i → db'.jobs.find k = some a
  survivors : ∀ {k a}, db'.jobs.find k = some a → a.status = .pending → db.jobs.find k = some a

theorem Cancels.refl (cfg : Config) (l : Licence) (i : ScopeId) (db : Db) : Cancels cfg l i db db :=
  ⟨.refl, rfl, rfl, fun h _ => h, fun h _ => h, fun h _ => h⟩

theorem Cancels.trans {i : ScopeId} {db₁ db₂ db₃ : Db} (h : Cancels cfg l i db₁ db₂) (h' : Cancels cfg l i db₂ db₃) :
    Cancels cfg l i db₁ db₃ where
  steps := h.steps.trans h'.steps
  scopes := h'.scopes.trans h.scopes
  onCommit := h'.onCommit.trans h.onCommit
  publications hq hr := h'.publications (h.publications hq hr) hr
  jobs hk ha := h'.jobs (h.jobs hk ha) ha
  survivors hk ha := h.survivors (h'.survivors hk ha) ha

/-- The published row of a scope is not touched by cancelling pending work. -/
theorem Cancels.currentPublication {i k : ScopeId} {db' : Db} (hc : Cancels cfg l k db db') (h : Inv db.core)
    {s : Scope} (hs : db.scopes.find i = some s) : db'.currentPublication s = db.currentPublication s := by
  unfold Db.currentPublication
  cases hp : s.currentPublishedPublication with
  | none => rfl
  | some p =>
    obtain ⟨pub, hpub, -, hst⟩ := h.current_published hs hp
    change db.publications.find p = some pub at hpub
    simp only [Option.bind_some]
    rw [hpub, hc.publications hpub (by rw [hst]; decide)]

/-- A staged attempt may be rewritten freely within its identity. -/
theorem Row.of_staged {p q : Publication} (hs : p.status = .staged) (h1 : q.scopeState = p.scopeState)
    (h2 : q.key = p.key) (h3 : q.versionNumber = p.versionNumber) : Row purge p q := by
  constructor <;> simp_all [PublicationStatus.isFinished]

theorem Cancels.staged {i : ScopeId} {p : PublicationId} {pub : Publication} {f : Publication → Publication}
    (hp : db.publications.find p = some pub) (hst : pub.status = .staged) (hr : Row l.purge pub (f pub))
    (hf : (f pub).status = .cancelled) : Cancels cfg l i db (db.modifyPublication p f) where
  steps := .single (.staged hp hst hr (.inr hf))
  scopes := rfl
  onCommit := rfl
  publications hq hr := by
    rw [show (db.modifyPublication p f).publications = db.publications.modify p f from rfl]
    grind
  jobs hk _ := hk
  survivors hk _ := hk

theorem Cancels.closeJob {i : ScopeId} {j : JobId} {a : Job} {f : Job → Job} (hj : db.jobs.find j = some a)
    (hi : a.scopeState = i) (ha : a.status = .pending) (hk : (f a).key = a.key) (hs : (f a).scopeState = a.scopeState)
    (hst : (f a).status.isActive = false) (hb : (f a).buildPublication = a.buildPublication) :
    Cancels cfg l i db (db.modifyJob j f) where
  steps := .single (.closeJob hj ha hk hs hst hb)
  scopes := rfl
  onCommit := rfl
  publications hq _ := hq
  jobs hk ha := by
    rw [show (db.modifyJob j f).jobs = db.jobs.modify j f from rfl]
    grind
  survivors {k b} hk hb := by
    have hk : (db.jobs.modify j f).find k = some b := hk
    by_cases hkj : j = k
    · subst hkj
      simp only [Table.find_modify, if_true, hj, Option.map_some, Option.some.injEq] at hk
      rw [hk, hb] at hst
      cases hst
    · simpa [hkj] using hk

theorem wp_cancelPending {i : ScopeId} {j : JobId} {a : Job} (h : Inv db.core) (hj : db.jobs.find j = some a)
    (hi : a.scopeState = i) (ha : a.status = .pending) :
    wp (cancelPending env j a) (fun _ db' => Cancels cfg l i db db' ∧
      (∃ b, db'.jobs.find j = some b ∧ b.status = .cancelled) ∧ ∀ k, k ≠ j → db'.jobs.find k = db.jobs.find k)
      (fun _ _ => False) db := by
  have hclose : ∀ {db' : Db}, Cancels cfg l i db db' → db'.jobs = db.jobs → ∀ f : Job → Job,
      (f a).key = a.key → (f a).scopeState = a.scopeState → (f a).status = .cancelled →
      (f a).buildPublication = a.buildPublication →
      Cancels cfg l i db (db'.modifyJob j f) ∧
        (∃ b, (db'.modifyJob j f).jobs.find j = some b ∧ b.status = .cancelled) ∧
        ∀ k, k ≠ j → (db'.modifyJob j f).jobs.find k = db.jobs.find k := by
    intro db' hc hjobs f h1 h2 h3 h4
    refine ⟨hc.trans (.closeJob (by rw [hjobs, hj]) hi ha h1 h2 (by rw [h3]; rfl) h4), ⟨f a, ?_, h3⟩, fun k hk => ?_⟩
    · simp [Db.modifyJob, hjobs, hj]
    · simp [Db.modifyJob, hjobs, hk.symm]
  unfold cancelPending
  cases hb : a.buildPublication with
  | none =>
    simp only [wp_modify]
    exact hclose (.refl cfg l i db) rfl _ rfl rfl rfl rfl
  | some p =>
    obtain ⟨pub, hp, -⟩ := h.build_scope hj hb
    change db.publications.find p = some pub at hp
    simp only [wp_bind, wp_get, wp_require, wp_whenever, wp_modify, hp, Option.some.injEq, reduceCtorEq,
      IsEmpty.forall_iff, and_true, forall_eq']
    refine ⟨fun hst => ?_, fun _ => hclose (.refl cfg l i db) rfl _ rfl rfl rfl rfl⟩
    exact hclose (.staged hp hst (.of_staged hst rfl rfl rfl) rfl) rfl _ rfl rfl rfl rfl

/-- The only pending work a clean scope keeps forces a rebuild. -/
def Cleared (i : ScopeId) (db : Db) : Prop :=
  ∀ k a, db.jobs.find k = some a → a.scopeState = i → a.status = .pending → a.allowCleanRebuild = true

theorem wp_cancelRedundantPending {i : ScopeId} (h : Inv db.core) :
    wp (cancelRedundantPending env i) (fun _ db' => Cancels cfg l i db db' ∧ Cleared i db') (fun _ _ => False) db := by
  unfold cancelRedundantPending
  simp only [wp_bind, wp_get]
  refine wp_mono (wp_forEach_rows Db.jobs (fun db' => Cancels cfg l i db db') (fun b => b.status = .cancelled) _
    (Table.nodup_keys_filter _ _) (fun e he => (Table.mem_filter.mp he).1) (.refl cfg l i db) ?_) ?_ (fun _ _ h => h)
  · rintro ⟨j, a⟩ db₁ h₁ hmem hj
    have ha := (Table.mem_filter.mp hmem).2
    simp only [decide_eq_true_eq] at ha
    have hcancel : wp (cancelPending env j a) (fun _ db' => Cancels cfg l i db₁ db' ∧
        (∃ b, db'.jobs.find j = some b ∧ b.status = .cancelled) ∧ ∀ k, k ≠ j → db'.jobs.find k = db₁.jobs.find k)
        (fun _ _ => False) db₁ := wp_cancelPending (h₁.steps.inv h) hj ha.1 ha.2.1
    exact wp_mono hcancel (fun _ db₂ h₂ => ⟨h₁.trans h₂.1, h₂.2⟩) (fun _ _ h => h)
  · rintro _ db₁ ⟨h₁, hcancelled, -⟩
    have hclear : Cleared i db₁ := by
      intro k a hk hi hp
      by_contra hforce
      rw [Bool.not_eq_true] at hforce
      have hmem : (k, a) ∈ db.jobs.filter fun job =>
          job.scopeState = i ∧ job.status = .pending ∧ job.allowCleanRebuild = false :=
        Table.mem_filter.mpr ⟨h₁.survivors hk hp, by simp [hi, hp, hforce]⟩
      obtain ⟨b, hb, hst⟩ := hcancelled (k, a) hmem
      rw [Option.some.inj (hk.symm.trans hb), hst] at hp
      cases hp
    refine wp_mono (wp_forEach_rows Db.publications (fun db' => Cancels cfg l i db db' ∧ db'.jobs = db₁.jobs)
      (fun _ => True) _ ?_ ?_ ⟨h₁, rfl⟩ ?_) (fun _ db₂ h₂ => ⟨h₂.1.1, fun k a hk => hclear k a (h₂.1.2 ▸ hk)⟩)
      (fun _ _ h => h)
    · exact (Table.nodup_keys_filter _ _).sublist (List.filter_sublist.map Prod.fst)
    · intro e he
      exact (Table.mem_filter.mp (List.mem_of_mem_filter he)).1
    · rintro ⟨p, pub⟩ db₂ ⟨h₂, hjobs⟩ hmem hp
      have hst : pub.status = .staged := by
        have := (Table.mem_filter.mp (List.mem_of_mem_filter hmem)).2
        simp only [decide_eq_true_eq] at this
        exact this.2
      simp only [wp_modify]
      refine ⟨⟨h₂.trans (.staged hp hst (.of_staged hst rfl rfl rfl) rfl), hjobs⟩, ?_, fun k hk => ?_⟩
      · change db₂.publications.find p = some pub at hp
        exact ⟨{ pub with status := .cancelled }, by simp [Db.modifyPublication, hp], trivial⟩
      · simp [Db.modifyPublication, hk.symm]

/-- Writing the scope row within its identity. -/
theorem Steps.setScope {i : ScopeId} {s t : Scope} (hs : db.scopes.find i = some s) (hk : t.key = s.key)
    (hc : t.currentPublishedPublication = s.currentPublishedPublication)
    (hf : t.currentSourceFingerprint = s.currentSourceFingerprint ∨
      ∃ d, t.currentSourceFingerprint = db.storedSourceFingerprint cfg s d) :
    Steps cfg l db.core (db.setScope i t).core :=
  .single (.scope (c := db.core) (f := fun _ => t) hs hk hc hf)

/-- The scope object after a clean comparison. -/
def Scope.reconciled (s : Scope) (stored : Fingerprint) : Scope :=
  { s with currentSourceFingerprint := stored, dirtySince := none }

/-- The object `s` may be ahead of the row `r`, which is written only when needed. -/
theorem wp_reconcileCleanSource {i : ScopeId} {s r : Scope} {d : Digest} (h : Inv db.core)
    (hr : db.scopes.find i = some r)
    (hc : s.currentPublishedPublication = r.currentPublishedPublication)
    {Q : Bool × Scope → Db → Prop} {E : Error → Db → Prop}
    (hdirty : db.scopeIsDirty cfg s (some d) = true → Q (false, s) db)
    (hclean : ∀ t db', db.scopeIsDirty cfg s (some d) = false →
      t = r.reconciled (db.storedSourceFingerprint cfg s d) ∨
        t = r ∧ s.currentSourceFingerprint = db.storedSourceFingerprint cfg s d ∧ s.dirtySince = none →
      Cancels cfg l i (db.setScope i t) db' → Cleared i db' →
      Q (true, s.reconciled (db.storedSourceFingerprint cfg s d)) db') :
    wp (reconcileCleanSource cfg env i s d) Q E db := by
  simp only [reconcileCleanSource, wp_bind, wp_get, wp_ite, wp_pure, wp_whenever, wp_modify]
  refine ⟨hdirty, fun hd => ?_⟩
  rw [Bool.not_eq_true] at hd
  have hstored : db.storedSourceFingerprint cfg s d = db.storedSourceFingerprint cfg r d := by
    simp [Db.storedSourceFingerprint, Db.currentPublication, hc]
  have hcancel : ∀ {db₁ : Db}, Inv db₁.core →
      wp (cancelRedundantPending env i) (fun _ db' => Cancels cfg l i db₁ db' ∧ Cleared i db') (fun _ _ => False) db₁ :=
    wp_cancelRedundantPending
  refine ⟨fun _ => ?_, fun hno => ?_⟩
  · rw [Db.modifyScope_eq_setScope hr]
    have hset : Steps cfg l db.core (db.setScope i (r.reconciled (db.storedSourceFingerprint cfg s d))).core :=
      .setScope hr rfl rfl (.inr ⟨d, hstored⟩)
    exact wp_mono (hcancel (hset.inv h)) (fun _ db' hcan => hclean _ db' hd (.inl rfl) hcan.1 hcan.2)
      (fun _ _ hf => hf.elim)
  · simp only [not_or, not_not, Bool.not_eq_true, Option.isSome_eq_false_iff, Option.isNone_iff_eq_none] at hno
    refine wp_mono (hcancel h) (fun _ db' hcan => ?_) (fun _ _ hf => hf.elim)
    exact hclean r db' hd (.inr ⟨rfl, hno⟩) (by rw [Db.setScope_self hr]; exact hcan.1) hcan.2

/-- With the object equal to the row, the row is the reconciled one afterwards. -/
theorem wp_reconcileCleanSource_row {i : ScopeId} {s : Scope} {d : Digest} (h : Inv db.core)
    (hs : db.scopes.find i = some s) {Q : Bool × Scope → Db → Prop} {E : Error → Db → Prop}
    (hdirty : db.scopeIsDirty cfg s (some d) = true → Q (false, s) db)
    (hclean : ∀ db', db.scopeIsDirty cfg s (some d) = false →
      Cancels cfg l i (db.setScope i (s.reconciled (db.storedSourceFingerprint cfg s d))) db' → Cleared i db' →
      Q (true, s.reconciled (db.storedSourceFingerprint cfg s d)) db') :
    wp (reconcileCleanSource cfg env i s d) Q E db := by
  refine wp_reconcileCleanSource (l := l) h hs rfl hdirty fun t db' hd ht hcan hcl => ?_
  refine hclean db' hd ?_ hcl
  rcases ht with rfl | ⟨rfl, hf, hds⟩
  · exact hcan
  · rwa [Scope.reconciled, ← hf, ← hds]

/-- The scope row after an enqueue or a claim read its source. -/
def Scope.recorded (s : Scope) (cfg : Config) (db : Db) (snapshot : Snapshot) (d : Digest) : Scope :=
  { s.refreshed snapshot with currentSourceFingerprint := db.storedSourceFingerprint cfg s d }

theorem Steps.recorded {i : ScopeId} {s : Scope} {snapshot : Snapshot} {d : Digest}
    (hs : db.scopes.find i = some s) :
    Steps cfg l db.core (db.setScope i (s.recorded cfg db snapshot d)).core :=
  .setScope hs rfl rfl (.inr ⟨d, rfl⟩)

/-- Every version of a scope lies below the next one. -/
theorem Db.lt_nextVersion {i : ScopeId} {k : PublicationId} {p : Publication}
    (hk : db.publications.find k = some p) (hp : p.scopeState = i) : p.versionNumber < db.nextVersion i := by
  have hmem : p.versionNumber ∈
      (db.publications.filter fun p => p.scopeState = i).map fun e => e.2.versionNumber :=
    List.mem_map.mpr ⟨(k, p), Table.mem_filter.mpr ⟨hk, by simpa using hp⟩, rfl⟩
  exact Nat.lt_succ_of_le (List.le_max_of_le hmem le_rfl)

theorem wp_allocateStagedPublication {i : ScopeId} {key : ScopeKey} {rev : ℕ} {by' : Option Actor} {d : Digest}
    {snapshot : Snapshot} {Q : PublicationId × Publication → Db → Prop} {E : Error → Db → Prop}
    (hQ : ∀ definition, getDatasetDefinition key.target.datasetTypeCode = .ok definition →
      let p := db.stagedPublication env i key definition.currentSchemaVersion rev by' d snapshot
      Q (db.publications.nextId, p) { db with publications := db.publications.insert p })
    (hE : ∀ e, getDatasetDefinition key.target.datasetTypeCode = .error e → E e db) :
    wp (allocateStagedPublication env i key rev by' d snapshot) Q E db := by
  simp only [allocateStagedPublication, wp_bind, wp_ofExcept, wp_get, wp_modify, wp_pure]
  exact ⟨hQ, hE⟩

end FireDash.Publications
