import FireDash.Publications.System

/-! When a pending job becomes claimable, and what coalescing does to that moment. -/
namespace FireDash.Publications

open Tx

variable {cfg : Config} {env : Env} {l : Licence} {db : Db}

/-- The nightly windows are the moments five minutes after midnight. -/
def isWindow (t : Time) : Prop := t % day = 5 * minute

/-- An edit is scheduled for the first window after it. -/
theorem dataChangeNotBefore_first (now : ℕ) :
    now < dataChangeNotBefore now ∧ isWindow (dataChangeNotBefore now) ∧
      ∀ t : ℕ, now < t → isWindow t → dataChangeNotBefore now ≤ t := by
  have hwindow : ∀ now : ℕ, dataChangeNotBefore now =
      if 300000000 ≤ now % 86400000000 then now - now % 86400000000 + 300000000 + 86400000000
      else now - now % 86400000000 + 300000000 := fun _ => rfl
  have hday : ∀ t : ℕ, isWindow t ↔ t % 86400000000 = 300000000 := fun _ => Iff.rfl
  rw [hwindow, hday]
  refine ⟨?_, ?_, fun t ht hw => Nat.le_of_not_lt fun hlt => ?_⟩
  · split_ifs <;> omega
  · split_ifs <;> omega
  · rw [hday] at hw
    split_ifs at hlt <;> omega

/-- One schedule makes a job claimable no later than another. -/
def NotLater (new old : Option Time) : Prop := ∀ t ∈ new, ∃ u ∈ old, t ≤ u

theorem NotLater.refl (t : Option Time) : NotLater t t := fun u hu => ⟨u, hu, le_rfl⟩

theorem NotLater.trans {a b c : Option Time} (h : NotLater a b) (h' : NotLater b c) : NotLater a c := by
  intro t ht
  obtain ⟨u, hu, htu⟩ := h t ht
  obtain ⟨v, hv, huv⟩ := h' u hu
  exact ⟨v, hv, htu.trans huv⟩

/-- What a dirty mark or an enqueue asks the queue for. -/
def Call.request : Call → Option EnqueueRequest
  | markDirty target actor => some { target := target, requestedBy := actor }
  | enqueuePublicationJob request => some request
  | _ => none

/-- The request names a scope whose source differs from the published one, or forces a
rebuild of it. -/
def EnqueueRequest.FindsWork (cfg : Config) (env : Env) (db : Db) (request : EnqueueRequest) : Prop :=
  ∃ i s snapshot d, db.scopes.find i = some s ∧ scopeFilter request.target = .ok s.key ∧
    (request.source = some (snapshot, d) ∨
      request.source = none ∧ currentSource cfg env request.target = .ok (snapshot, d)) ∧
    (request.allowCleanRebuild = true ∨ db.scopeIsDirty cfg s (some d) = true)

/-- Where a job that is pending after a request comes from. -/
inductive Edited (cfg : Config) (env : Env) (db : Db) (request : EnqueueRequest) (j : JobId) (a' : Job) : Prop
  | same (hj : db.jobs.find j = some a')
  | created (hn : db.jobs.find j = none) (ht : a'.triggerType = request.triggerType)
      (hb : a'.notBefore =
        some (if request.triggerType = .dataChange then dataChangeNotBefore env.now else env.now))
  | coalesced {a rev} (hj : db.jobs.find j = some a) (hp : a.status = .pending)
      (ht : a.key.target = request.target) (hw : request.FindsWork cfg env db)
      (he : a' = Job.coalesce env.now request rev a)

theorem Db.coalesced_jobs (request : EnqueueRequest) (j : JobId) (a : Job) (s : Scope) (snapshot : Snapshot)
    (d : Digest) : (db.coalesced env request j a s snapshot d).jobs =
      db.jobs.modify j (Job.coalesce env.now request s.sourceRevision) := by
  unfold Db.coalesced
  cases a.buildPublication with
  | none => rfl
  | some p =>
    simp only
    split_ifs <;> rfl

theorem EnqueueReads.findsWork {request : EnqueueRequest} {i : ScopeId} {s t : Scope} {snapshot : Snapshot}
    {d : Digest} (hr : EnqueueReads cfg env request db i s t snapshot d)
    (hd : request.allowCleanRebuild = true ∨ db.scopeIsDirty cfg t (some d) = true) :
    request.FindsWork cfg env db := by
  have htarget := scopeFilter_target hr.key
  refine ⟨i, s, snapshot, d, hr.scope, hr.key, ?_, ?_⟩
  · rcases hr.source with ⟨hs, -⟩ | ⟨hs, hread, -⟩
    · exact .inl hs
    · exact .inr ⟨hs, htarget ▸ hread⟩
  · rcases hr.source with ⟨-, rfl⟩ | ⟨-, -, rfl⟩
    · exact hd
    · exact hd

/-- Every job that is pending after an enqueue is untouched, new, or coalesced. -/
theorem Enqueued.edited {request : EnqueueRequest} {r : Option JobId} {db' : Db}
    (m : Enqueued cfg env l request db r db') {j : JobId} {a' : Job} (ha : db'.jobs.find j = some a')
    (hp : a'.status = .pending) : Edited cfg env db request j a' := by
  cases m with
  | clean hr hforce hd hc => exact .same (hc.survivors ha hp)
  | running hr hd hj hk hrun => exact .same ha
  | @coalesced i s t snapshot d k a hr hd hj hk hpending =>
    rw [Db.coalesced_jobs] at ha
    by_cases hkj : k = j
    · subst hkj
      have hfind : db.jobs.find k = some a := hj
      simp only [Table.find_modify, if_true, Db.setScope_jobs, hfind, Option.map_some, Option.some.injEq] at ha
      refine .coalesced hfind hpending ?_ (hr.findsWork hd) ha.symm
      rw [hk, scopeFilter_target hr.key]
    · simp only [Table.find_modify, if_neg hkj] at ha
      exact .same ha
  | @created i s t snapshot d definition hr hd hn hdef =>
    change (db.jobs.insert _).find j = some a' at ha
    rw [Table.find_insert] at ha
    by_cases hj : j = db.jobs.nextId
    · rw [if_pos hj] at ha
      cases ha
      exact .created (by rw [hj]; simp) rfl rfl
    · rw [if_neg hj] at ha
      exact .same ha

theorem MarkedDirty.edited {target : Target} {actor : Option Actor} {i : ScopeId} {db' : Db} (h : Inv db.core)
    (m : MarkedDirty cfg env l target actor db i db') {j : JobId} {a' : Job} (ha : db'.jobs.find j = some a')
    (hp : a'.status = .pending) :
    Edited cfg env db { target := target, requestedBy := actor } j a' := by
  cases m with
  | @dirty s key db₀ snapshot d r _ hkey hs hsource hd he =>
    obtain ⟨-, hjobs, -⟩ := hs.onCommit
    cases he.edited ha hp with
    | same hj => exact .same (hjobs ▸ hj)
    | created hn ht hb => exact .created (hjobs ▸ hn) ht hb
    | @coalesced a rev hj hpending ht hw he =>
      have hj : db.jobs.find j = some a := hjobs ▸ hj
      refine .coalesced hj hpending ht ?_ he
      obtain ⟨hrow, hk⟩ := hs.find
      cases hs with
      | existing hrow hk => exact ⟨i, s, snapshot, d, hrow, by rw [hkey, hk], .inr ⟨rfl, hsource⟩, .inr hd⟩
      | created hf hn =>
        -- A scope that is only now created has no job that could be coalesced.
        obtain ⟨s', hs', hk'⟩ := h.job_scope hj
        have hkey' : s'.key = key := h.scope_filter hs' (by rw [hk', ht]; exact hkey)
        exact absurd hkey' (hn hs')
  | @clean s key db₀ snapshot d t db₁ hkey hs hsource hd hsteps hc hk hcur hlb =>
    obtain ⟨-, hjobs, -⟩ := hs.onCommit
    have hj := hc.survivors ha hp
    exact .same (hjobs ▸ hj)

theorem Call.edited {call : Call} {request : EnqueueRequest} (h : Inv db.core) (hreq : call.request = some request)
    {j : JobId} {a' : Job} (ha : (exec (call.run cfg env) db).jobs.find j = some a') (hp : a'.status = .pending) :
    Edited cfg env db request j a' := by
  revert ha
  refine exec_of_wp (P := fun db' : Db => db'.jobs.find j = some a' → Edited cfg env db request j a') ?_
  have hraise : ∀ (_ : Error) (db' : Db), db' = db → db'.jobs.find j = some a' → Edited cfg env db request j a' :=
    fun _ _ he ha => .same (he ▸ ha)
  cases call with
  | markDirty target actor =>
    cases hreq
    exact wp_bind.mpr (wp_mono (wp_markDirty (l := { mint := True }) h) (fun _ _ m ha => m.edited h ha hp) hraise)
  | enqueuePublicationJob request =>
    cases hreq
    exact wp_bind.mpr (wp_mono (wp_enqueuePublicationJob (l := { mint := True }) h) (fun _ _ m ha => m.edited ha hp)
      hraise)
  | _ => cases hreq

/-- Dirty marks and enqueues from a given state on, under a clock that never goes back. -/
def edits (cfg : Config) (db₀ : Db) (t₀ : Time) : Machine (Db × Time) (Env × Call) where
  init s := s = (db₀, t₀)
  step s a s' := a.2.request.isSome = true ∧ s.2 ≤ a.1.now ∧ s' = (exec (a.2.run cfg a.1) s.1, a.1.now)

theorem edits_reachable {db₀ : Db} {t₀ : Time} (h : (system cfg).Reachable db₀) {s : Db × Time}
    (hr : (edits cfg db₀ t₀).Reachable s) : (system cfg).Reachable s.1 := by
  refine hr.invariant (I := fun s : Db × Time => (system cfg).Reachable s.1) ?_ ?_
  · rintro _ rfl
    exact h
  · rintro s a _ hs ⟨-, -, rfl⟩
    exact reachable_step hs a.1 a.2

/-- The request does not come too late for the pending job it is coalesced into: an
explicit one not after the job's time, a source change before the window the job waits for. -/
def OnTime (cfg : Config) (j : JobId) (s : Db × Time) (a : Env × Call) : Prop :=
  ∀ request job, a.2.request = some request → s.1.jobs.find j = some job → job.status = .pending →
    job.key.target = request.target → request.FindsWork cfg a.1 s.1 →
    (request.triggerType.isExplicit = true → ∃ t ∈ job.notBefore, a.1.now ≤ t) ∧
    (request.triggerType.isExplicit = false → job.triggerType = .dataChange →
      ∃ t ∈ job.notBefore, a.1.now < t ∧ isWindow t)

/-- Coalescing on time does not postpone. -/
theorem Job.coalesce_notLater {now : Time} {request : EnqueueRequest} {rev : ℕ} {job : Job}
    (hexplicit : request.triggerType.isExplicit = true → ∃ t ∈ job.notBefore, now ≤ t)
    (hchange : request.triggerType.isExplicit = false → job.triggerType = .dataChange →
      ∃ t ∈ job.notBefore, now < t ∧ isWindow t) :
    NotLater (Job.coalesce now request rev job).notBefore job.notBefore := by
  unfold Job.coalesce
  by_cases he : request.triggerType.isExplicit = true
  · obtain ⟨t, ht, hle⟩ := hexplicit he
    simp only [he, if_true]
    intro u hu
    obtain rfl := Option.some.inj hu
    exact ⟨t, ht, hle⟩
  · rw [Bool.not_eq_true] at he
    by_cases hd : job.triggerType = .dataChange
    · obtain ⟨t, ht, hlt, hw⟩ := hchange he hd
      simp only [he, Bool.false_eq_true, if_false, hd, if_true]
      intro u hu
      obtain rfl := Option.some.inj hu
      exact ⟨t, ht, (dataChangeNotBefore_first now).2.2 t hlt hw⟩
    · simp only [he, Bool.false_eq_true, if_false, hd]
      exact .refl _

/-- An explicit job that is claimable now stays so, whatever is coalesced into it later. -/
theorem Job.coalesce_due {now t : Time} {request : EnqueueRequest} {rev : ℕ} {job : Job} (hclock : t ≤ now)
    (he : job.triggerType.isExplicit = true) (hdue : job.due t = true) :
    (Job.coalesce now request rev job).triggerType.isExplicit = true ∧
      (Job.coalesce now request rev job).due now = true := by
  simp only [Job.due, decide_eq_true_eq] at hdue ⊢
  have hnot : job.triggerType ≠ .dataChange := by
    rintro hd
    rw [hd] at he
    cases he
  unfold Job.coalesce
  by_cases hr : request.triggerType.isExplicit = true
  · simp only [hr, if_true]
    refine ⟨trivial, hdue.1, fun u hu => ?_⟩
    obtain rfl := Option.some.inj hu
    exact le_rfl
  · simp only [hr, if_false, hnot]
    exact ⟨he, hdue.1, fun u hu => (hdue.2 u hu).trans hclock⟩

section Edits

variable {db₀ : Db} {t₀ : Time} {j : JobId} {a₀ : Job}

/-- Along on-time edits the job is never scheduled later than it was. -/
theorem edits_notLater (h : (system cfg).Reachable db₀) (hj : db₀.jobs.find j = some a₀) {s : Db × Time}
    (hr : (edits cfg db₀ t₀).ReachableBy (OnTime cfg j) s) {a : Job} (ha : s.1.jobs.find j = some a)
    (hp : a.status = .pending) : NotLater a.notBefore a₀.notBefore := by
  have hinv : (∃ a, s.1.jobs.find j = some a) ∧
      ∀ a, s.1.jobs.find j = some a → a.status = .pending → NotLater a.notBefore a₀.notBefore := by
    refine hr.invariant (I := fun s : Db × Time => (∃ a, s.1.jobs.find j = some a) ∧
      ∀ a, s.1.jobs.find j = some a → a.status = .pending → NotLater a.notBefore a₀.notBefore) ?_ ?_
    · rintro _ rfl
      refine ⟨⟨a₀, hj⟩, fun a ha _ => ?_⟩
      obtain rfl := Option.some.inj (hj.symm.trans ha)
      exact .refl _
    · rintro s ⟨env, call⟩ _ hs ⟨⟨b, hb⟩, hI⟩ hon ⟨hreq, -, rfl⟩
      obtain ⟨request, hreq⟩ := Option.isSome_iff_exists.mp hreq
      have hreach := inv_of_reachable (edits_reachable h hs)
      obtain ⟨b', hb', -⟩ := (call.steps hreach).keepsJob hb
      refine ⟨⟨b', hb'⟩, fun a ha hp => ?_⟩
      cases Call.edited hreach hreq ha hp with
      | same hj => exact hI a hj hp
      | created hn ht hnb =>
        rw [hb] at hn
        cases hn
      | @coalesced b rev hb hbp ht hw he =>
        obtain ⟨hexplicit, hchange⟩ := hon request b hreq hb hbp ht hw
        rw [he]
        exact (Job.coalesce_notLater hexplicit hchange).trans (hI b hb hbp)
  exact hinv.2 a ha hp

/-- An explicit job that was claimable stays claimable, however late the edits come. -/
theorem edits_due (h : (system cfg).Reachable db₀) (hj : db₀.jobs.find j = some a₀)
    (he : a₀.triggerType.isExplicit = true) (hdue : a₀.due t₀ = true) {s : Db × Time}
    (hr : (edits cfg db₀ t₀).Reachable s) {a : Job} (ha : s.1.jobs.find j = some a) (hp : a.status = .pending) :
    a.due s.2 = true := by
  have hall : (edits cfg db₀ t₀).ReachableBy (fun _ _ => True) s := by
    obtain ⟨s₀, trace, hrun⟩ := hr
    exact ⟨s₀, trace, hrun, fun _ _ => trivial⟩
  have hinv : (∃ a, s.1.jobs.find j = some a) ∧ ∀ a, s.1.jobs.find j = some a → a.status = .pending →
      a.triggerType.isExplicit = true ∧ a.due s.2 = true := by
    refine hall.invariant (I := fun s : Db × Time => (∃ a, s.1.jobs.find j = some a) ∧
      ∀ a, s.1.jobs.find j = some a → a.status = .pending → a.triggerType.isExplicit = true ∧ a.due s.2 = true) ?_ ?_
    · rintro _ rfl
      refine ⟨⟨a₀, hj⟩, fun a ha _ => ?_⟩
      obtain rfl := Option.some.inj (hj.symm.trans ha)
      exact ⟨he, hdue⟩
    · rintro s ⟨env, call⟩ _ hs ⟨⟨b, hb⟩, hI⟩ - ⟨hreq, hclock, rfl⟩
      obtain ⟨request, hreq⟩ := Option.isSome_iff_exists.mp hreq
      have hreach := inv_of_reachable (edits_reachable h hs)
      obtain ⟨b', hb', -⟩ := (call.steps hreach).keepsJob hb
      refine ⟨⟨b', hb'⟩, fun a ha hp => ?_⟩
      cases Call.edited hreach hreq ha hp with
      | same hj =>
        obtain ⟨hexplicit, hd⟩ := hI a hj hp
        refine ⟨hexplicit, ?_⟩
        simp only [Job.due, decide_eq_true_eq] at hd ⊢
        exact ⟨hd.1, fun u hu => (hd.2 u hu).trans hclock⟩
      | created hn ht hnb =>
        rw [hb] at hn
        cases hn
      | @coalesced b rev hb hbp ht hw he =>
        obtain ⟨hexplicit, hd⟩ := hI b hb hbp
        rw [he]
        exact Job.coalesce_due hclock hexplicit hd
  exact (hinv.2 a ha hp).2

/-- Of a pending job, under dirty marks and enqueues with a clock that never goes back:
on-time edits never postpone it; created for a source change it is claimable from the
first window after its creation on; made immediate it stays claimable, on time or not. -/
theorem coalescing_never_postpones (h : (system cfg).Reachable db₀) (hj : db₀.jobs.find j = some a₀) (t₀ : Time) :
    (∀ db t a, (edits cfg db₀ t₀).ReachableBy (OnTime cfg j) (db, t) → db.jobs.find j = some a →
      a.status = .pending → NotLater a.notBefore a₀.notBefore) ∧
    (∀ db' env (call : Call), (system cfg).Reachable db' → call.request.isSome = true → db'.jobs.find j = none →
      db₀ = exec (call.run cfg env) db' → a₀.status = .pending → a₀.triggerType = .dataChange →
      ∀ db t a, (edits cfg db₀ t₀).ReachableBy (OnTime cfg j) (db, t) → db.jobs.find j = some a →
        a.status = .pending → ∀ window now, isWindow window → env.now < window → window ≤ now → a.due now = true) ∧
    ∀ db t a, (edits cfg db₀ t₀).Reachable (db, t) → db.jobs.find j = some a → a.status = .pending →
      a₀.triggerType.isExplicit = true → a₀.due t₀ = true → a.due t = true := by
  refine ⟨fun db t a hr ha hp => edits_notLater h hj hr ha hp, ?_,
    fun db t a hr ha hp he hdue => edits_due h hj he hdue hr ha hp⟩
  rintro db' env call h' hreq hn rfl hp₀ htrigger db t a hr ha hp window now hw hlt hle
  obtain ⟨request, hreq⟩ := Option.isSome_iff_exists.mp hreq
  have hwindow : a₀.notBefore = some (dataChangeNotBefore env.now) := by
    cases Call.edited (inv_of_reachable h') hreq hj hp₀ with
    | same hsame =>
      rw [hn] at hsame
      cases hsame
    | created _ ht hb =>
      rw [htrigger] at ht
      rw [hb, ← ht]
      rfl
    | coalesced hsame _ _ _ _ =>
      rw [hn] at hsame
      cases hsame
  have hlater := edits_notLater h hj hr ha hp
  simp only [Job.due, decide_eq_true_eq]
  refine ⟨hp, fun u hu => ?_⟩
  obtain ⟨v, hv, huv⟩ := hlater u hu
  rw [hwindow] at hv
  obtain rfl := Option.some.inj hv
  exact huv.trans (((dataChangeNotBefore_first env.now).2.2 window hlt hw).trans hle)

end Edits

/-- A phonebook edit at midnight, whose window is five minutes later. -/
def midnightEdit : Db := runCalls sampleConfig {} [(phonebookEnv 0 1, .markDirty phonebookTarget none)]

/-- A second phonebook edit some time after it. -/
def secondEdit (now : Time) : Db := exec ((Call.markDirty phonebookTarget none).run sampleConfig (phonebookEnv now 2)) midnightEdit

/-- A second edit before the window leaves the job due at the window. -/
theorem secondEdit_on_time : ∃ a₀ a, midnightEdit.jobs.find 0 = some a₀ ∧ (secondEdit 1).jobs.find 0 = some a ∧
    a.sourceRevision = 2 ∧ NotLater a.notBefore a₀.notBefore := by
  have hrow : (midnightEdit.jobs.find 0).map (·.notBefore) = some (some (5 * minute)) := by decide +kernel
  have hrow' : ((secondEdit 1).jobs.find 0).map (fun a => (a.status, a.sourceRevision)) = some (.pending, 2) := by
    decide +kernel
  obtain ⟨a₀, ha₀, hb₀⟩ := Option.map_eq_some_iff.mp hrow
  obtain ⟨a, ha, hst⟩ := Option.map_eq_some_iff.mp hrow'
  obtain ⟨hp, hrev⟩ := Prod.mk.inj hst
  have hreach : (system sampleConfig).Reachable midnightEdit := reachable_runCalls (.init Migrated.empty) _
  have hon : OnTime sampleConfig 0 (midnightEdit, 0) (phonebookEnv 1 2, .markDirty phonebookTarget none) := by
    intro request job hreq hjob _ _ _
    obtain rfl := Option.some.inj hreq
    obtain rfl := Option.some.inj (ha₀.symm.trans hjob)
    refine ⟨fun he => ?_, fun _ _ => ⟨5 * minute, hb₀, by decide, ?_⟩⟩
    · cases he
    · show 5 * minute % day = 5 * minute
      decide
  have hrun : (edits sampleConfig midnightEdit 0).ReachableBy (OnTime sampleConfig 0) (secondEdit 1, 1) :=
    (Machine.ReachableBy.init rfl).next hon ⟨rfl, by decide, rfl⟩
  exact ⟨a₀, a, ha₀, ha, hrev, (coalescing_never_postpones hreach ha₀ 0).1 _ _ a hrun ha hp⟩

/-- The worker misses the window and the second edit comes five minutes after it. -/
theorem secondEdit_missed_window : ∃ db a₀ db' a, (system sampleConfig).Reachable db ∧ db.jobs.find 0 = some a₀ ∧
    (edits sampleConfig db 0).Reachable (db', 10 * minute) ∧ db'.jobs.find 0 = some a ∧ a.status = .pending ∧
    ¬NotLater a.notBefore a₀.notBefore ∧ a₀.due (10 * minute) = true ∧ a.due (10 * minute) = false := by
  have hrow : (midnightEdit.jobs.find 0).map (fun a => (a.notBefore, a.due (10 * minute))) =
      some (some (5 * minute), true) := by decide +kernel
  have hrow' : ((secondEdit (10 * minute)).jobs.find 0).map (fun a => (a.status, a.notBefore, a.due (10 * minute))) =
      some (.pending, some (day + 5 * minute), false) := by decide +kernel
  obtain ⟨a₀, ha₀, he₀⟩ := Option.map_eq_some_iff.mp hrow
  obtain ⟨a, ha, he⟩ := Option.map_eq_some_iff.mp hrow'
  obtain ⟨hb₀, hdue₀⟩ := Prod.mk.inj he₀
  obtain ⟨hp, he⟩ := Prod.mk.inj he
  obtain ⟨hb, hdue⟩ := Prod.mk.inj he
  refine ⟨midnightEdit, a₀, secondEdit (10 * minute), a, reachable_runCalls (.init Migrated.empty) _, ha₀,
    Machine.Reachable.next (.init rfl) (a := (phonebookEnv (10 * minute) 2, .markDirty phonebookTarget none))
      ⟨rfl, by decide, rfl⟩, ha, hp, fun hlater => ?_, hdue₀, hdue⟩
  rw [hb, hb₀] at hlater
  obtain ⟨u, hu, hle⟩ := hlater (day + 5 * minute) rfl
  obtain rfl := Option.some.inj hu
  revert hle
  decide

end FireDash.Publications
