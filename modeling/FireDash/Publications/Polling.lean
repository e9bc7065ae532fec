import Mathlib.Order.Monotone.Basic
import Mathlib.Data.Finset.Card
import FireDash.Publications.System

/-! Repeated polls of the publication queue: which candidates a poll resolves, what stops
it, and when every due job is served in the end. -/
namespace FireDash.Publications

open Tx

variable {cfg : Config} {env : Env} {db : Db}

/-- A job that waits to be claimed. -/
def Db.Waits (db : Db) (j : JobId) (job : Job) : Prop := db.jobs.find j = some job ∧ job.status = .pending

/-- A claim that returns takes its candidate, and nothing else, from the waiting jobs. -/
theorem Claimed.waits {l : Licence} {candidate : JobId} {r : Option JobId} {db' : Db} (h : Inv db.core)
    (m : Claimed cfg env l db candidate r db') (k : JobId) (a : Job) :
    db'.Waits k a ↔ db.Waits k a ∧ k ≠ candidate := by
  unfold Db.Waits
  cases m with
  | lost hj hst =>
    refine ⟨fun hk => ⟨hk, ?_⟩, fun hk => hk.1⟩
    rintro rfl
    exact hst (Option.some.inj (hj.symm.trans hk.1) ▸ hk.2)
  | @clean job i s snapshot d _ hr ha hd hc hcl =>
    obtain ⟨hi, -⟩ := h.locked_job hr.found hr.scope hr.key
    constructor
    · rintro ⟨hk, hp⟩
      have hold : db.jobs.find k = some a := hc.survivors hk hp
      refine ⟨⟨hold, hp⟩, ?_⟩
      rintro rfl
      obtain rfl := Option.some.inj (hr.found.symm.trans hold)
      have hforce := hcl k job hk hi hp
      rw [ha] at hforce
      cases hforce
    · rintro ⟨⟨hk, hp⟩, hne⟩
      refine ⟨hc.jobs hk (.inr fun hsc => hne ?_), hp⟩
      exact h.one_active hk hr.found (hsc.trans hi.symm) (by rw [hp]; rfl) (by rw [hr.pending]; rfl)
  | @started job i s snapshot d p pub db₂ contents hr hf hst =>
    have hjobs : db₂.jobs = db.jobs := by cases hf <;> rfl
    have hrow : ((db₂.started env.now candidate p (refreshedRevision s snapshot) snapshot d).pinned contents).jobs =
        db.jobs.modify candidate (Job.start env.now (refreshedRevision s snapshot) p) := by
      rw [← hjobs]
      rfl
    rw [hrow, Table.find_modify]
    by_cases hk : candidate = k
    · subst hk
      rw [if_pos rfl, hr.found]
      refine ⟨fun ha => ?_, fun ha => absurd rfl ha.2⟩
      obtain ⟨rfl, hp⟩ : Job.start env.now (refreshedRevision s snapshot) p job = a ∧ a.status = .pending := by
        simpa using ha
      cases hp
    · simp [hk, Ne.symm hk]
  | @obsolete job i s snapshot d p pub hr hb hp hst =>
    simp only [Db.modifyJob, Db.setScope_jobs, Table.find_modify]
    by_cases hk : candidate = k
    · subst hk
      rw [if_pos rfl, hr.found]
      refine ⟨fun ha => ?_, fun ha => absurd rfl ha.2⟩
      obtain ⟨rfl, hp⟩ : Job.obsoleted env.now job = a ∧ a.status = .pending := by simpa using ha
      cases hp
    · simp [hk, Ne.symm hk]

/-- The claims of a poll that returned: each took one waiting job with a readable source. -/
structure Polled (env : Env) (db : Db) (tried : List JobId) (db' : Db) : Prop where
  waits : ∀ k a, db'.Waits k a ↔ db.Waits k a ∧ k ∉ tried
  available : ∀ c ∈ tried, ∃ a, db.Waits c a ∧ sourceAvailable env.canonical a.key.target = true

theorem Polled.refl (env : Env) (db : Db) : Polled env db [] db := ⟨by simp, by simp⟩

/-- A claim of a waiting job that returns, as the first claim of a poll. -/
theorem Claimed.polled {l : Licence} {candidate : JobId} {job : Job} {r : Option JobId} {db' : Db} (h : Inv db.core)
    (hw : db.Waits candidate job) (m : Claimed cfg env l db candidate r db') : Polled env db [candidate] db' := by
  have havailable : ∀ {i s snapshot d job'}, ClaimReads cfg env db candidate job' i s snapshot d →
      sourceAvailable env.canonical job.key.target = true := by
    intro i s snapshot d job' hr
    obtain rfl := Option.some.inj (hr.found.symm.trans hw.1)
    have hsource := hr.source
    rw [scopeFilter_target hr.key] at hsource
    exact currentSource_ok_iff.mp ⟨_, hsource⟩
  refine ⟨fun k a => by rw [m.waits h, List.mem_singleton], fun c hc => ?_⟩
  rw [List.mem_singleton] at hc
  subst hc
  refine ⟨job, hw, ?_⟩
  cases m with
  | lost hj hst => exact absurd (Option.some.inj (hj.symm.trans hw.1) ▸ hw.2) hst
  | clean hr => exact havailable hr
  | started hr => exact havailable hr
  | obsolete hr => exact havailable hr

theorem Polled.cons {candidate : JobId} {tried : List JobId} {db₁ db' : Db} (h₁ : Polled env db [candidate] db₁)
    (h : Polled env db₁ tried db') : Polled env db (candidate :: tried) db' where
  waits k a := by
    rw [h.waits, h₁.waits, List.mem_singleton, List.mem_cons, not_or, and_assoc]
  available c hc := by
    rcases List.mem_cons.mp hc with rfl | hc
    · exact h₁.available c (List.mem_singleton_self c)
    · obtain ⟨a, ha, hr⟩ := h.available c hc
      exact ⟨a, ((h₁.waits c a).mp ha).1, hr⟩

/-- A poll over waiting jobs claims one of them or resolves them all; it raises only on
a job whose source cannot be read. -/
theorem wp_claimFirst_polled (h : Inv db.core) {candidates : List JobId} (hnd : candidates.Nodup)
    (hw : ∀ c ∈ candidates, ∃ a, db.Waits c a) :
    wp (claimFirst cfg env candidates)
      (fun r db' => ∃ tried, Polled env db tried db' ∧ (∀ c, r = some c → c ∈ tried) ∧ (r = none → tried = candidates))
      (fun _ db' => ∃ tried, Polled env db tried db' ∧ ∃ c ∈ candidates, ∃ a, db.Waits c a ∧
        sourceAvailable env.canonical a.key.target = false) db := by
  induction candidates generalizing db with
  | nil => exact ⟨[], .refl env db, by simp, fun _ => rfl⟩
  | cons candidate rest ih =>
    obtain ⟨hfresh, hrest⟩ := List.nodup_cons.mp hnd
    obtain ⟨job, hjob⟩ := hw candidate List.mem_cons_self
    let l : Licence := { mint := True, claim := True }
    simp only [claimFirst, wp_bind]
    refine wp_mono (wp_claimJob_available (l := l) h) (fun r db₁ m => ?_) (fun _ db₁ he => ?_)
    · have hp := m.polled h hjob
      cases r with
      | some c =>
        obtain rfl : c = candidate := by cases m <;> rfl
        exact ⟨[c], hp, by simp, by simp⟩
      | none =>
        have hinv : Inv db₁.core := (m.steps trivial trivial h).inv h
        have hw₁ : ∀ c ∈ rest, ∃ a, db₁.Waits c a := by
          intro c hc
          obtain ⟨a, ha⟩ := hw c (List.mem_cons_of_mem _ hc)
          have hne : c ≠ candidate := fun he => hfresh (he ▸ hc)
          exact ⟨a, (m.waits h c a).mpr ⟨ha, hne⟩⟩
        refine wp_mono (ih hinv hrest hw₁) ?_ ?_
        · rintro r' db' ⟨tried, ht, hsome, hnone⟩
          exact ⟨candidate :: tried, hp.cons ht, fun c hc => List.mem_cons_of_mem _ (hsome c hc),
            fun hr => by rw [hnone hr]⟩
        · rintro _ db' ⟨tried, ht, c, hc, a, ha, hno⟩
          exact ⟨candidate :: tried, hp.cons ht, c, List.mem_cons_of_mem _ hc, a, ((m.waits h c a).mp ha).1, hno⟩
    · obtain ⟨rfl, hno⟩ := he
      exact ⟨[], .refl env _, candidate, List.mem_cons_self, job, hjob, hno job hjob.1⟩

theorem mem_dueJobs {now : Time} {j : JobId} : j ∈ (db.dueJobs now).map Prod.fst ↔
    ∃ job, db.jobs.find j = some job ∧ job.due now = true := by
  simp only [Db.dueJobs, Db.jobsByCreation, List.mem_map, Prod.exists, exists_and_right, exists_eq_right]
  simp only [(List.perm_insertionSort _ _).mem_iff, Table.mem_filter]

theorem nodup_dueJobs {now : Time} : ((db.dueJobs now).map Prod.fst).Nodup := by
  have hperm := (List.perm_insertionSort (fun a b : JobId × Job => a.2.createdAt ≤ b.2.createdAt)
    (db.jobs.filter (·.due now))).map Prod.fst
  exact hperm.nodup_iff.mpr (Table.nodup_keys_filter _ _)

theorem Job.due_waits {now : Time} {j : JobId} {job : Job} (hj : db.jobs.find j = some job) (hd : job.due now = true) :
    db.Waits j job := by
  simp only [Job.due, decide_eq_true_eq] at hd
  exact ⟨hj, hd.1⟩

/-- The due jobs at the start of a poll. -/
def Db.AllAvailable (db : Db) (env : Env) : Prop :=
  ∀ j job, db.jobs.find j = some job → job.due env.now = true → sourceAvailable env.canonical job.key.target = true

theorem wp_claimNextJob_polled (h : Inv db.core) : wp (claimNextJob cfg env)
    (fun r db' => ∃ tried, Polled env db tried db' ∧ (∀ c, r = some c → c ∈ tried) ∧
      (r = none → tried = (db.dueJobs env.now).map Prod.fst))
    (fun _ db' => (∃ tried, Polled env db tried db') ∧ ¬db.AllAvailable env) db := by
  simp only [claimNextJob, wp_bind, wp_get]
  refine wp_mono (wp_claimFirst_polled h nodup_dueJobs fun c hc => ?_) (fun _ _ m => m) (fun _ db' m => ?_)
  · obtain ⟨job, hj, hd⟩ := mem_dueJobs.mp hc
    exact ⟨job, Job.due_waits hj hd⟩
  · obtain ⟨tried, ht, c, hc, a, ha, hno⟩ := m
    refine ⟨⟨tried, ht⟩, fun hall => ?_⟩
    obtain ⟨job, hj, hd⟩ := mem_dueJobs.mp hc
    obtain rfl := Option.some.inj (hj.symm.trans ha.1)
    rw [hall c job hj hd] at hno
    cases hno

/-- The database before poll number `n`, when nothing but polls runs. -/
def polls (cfg : Config) (envs : ℕ → Env) (db : Db) : ℕ → Db
  | 0 => db
  | n + 1 => exec (claimNextJob cfg (envs n)) (polls cfg envs db n)

/-- Every poll returns, and a job due at one poll is claimed or closed by a later one. -/
structure Drains (cfg : Config) (envs : ℕ → Env) (db : Db) : Prop where
  returns : ∀ n, ∃ r, claimNextJob cfg (envs n) (polls cfg envs db n) = (.ok r, polls cfg envs db (n + 1))
  served : ∀ n j job, (polls cfg envs db n).jobs.find j = some job → job.due (envs n).now = true →
    ∃ m, n ≤ m ∧ ∃ job', (polls cfg envs db m).jobs.find j = some job' ∧ job'.status ≠ .pending

/-- Whenever a job of the queue is due, its source can be read. -/
def QueueAvailable (envs : ℕ → Env) (db : Db) : Prop := ∀ n, db.AllAvailable (envs n)

section Polls

variable {envs : ℕ → Env}

theorem reachable_polls (h : (system cfg).Reachable db) (envs : ℕ → Env) (n : ℕ) : (system cfg).Reachable (polls cfg envs db n) := by
  induction n with
  | zero => exact h
  | succ n ih => exact reachable_claimNextJob ih (envs n)

/-- Whichever way a poll ends, it only takes jobs with a readable source. -/
theorem polls_succ_polled (h : (system cfg).Reachable db) (envs : ℕ → Env) (n : ℕ) :
    ∃ tried, Polled (envs n) (polls cfg envs db n) tried (polls cfg envs db (n + 1)) := by
  have hinv := inv_of_reachable (reachable_polls h envs n)
  refine exec_of_wp (P := fun db' => ∃ tried, Polled (envs n) (polls cfg envs db n) tried db') ?_
  exact wp_mono (wp_claimNextJob_polled hinv) (fun _ _ ⟨tried, ht, _⟩ => ⟨tried, ht⟩) (fun _ _ he => he.1)

/-- Polls create no work. -/
theorem waits_of_polls (h : (system cfg).Reachable db) {n m : ℕ} (hnm : n ≤ m) {j : JobId} {a : Job}
    (hw : (polls cfg envs db m).Waits j a) : (polls cfg envs db n).Waits j a := by
  induction hnm with
  | refl => exact hw
  | @step m _ ih =>
    obtain ⟨tried, ht⟩ := polls_succ_polled h envs m
    exact ih ((ht.waits j a).mp hw).1

theorem polls_keepsJob (h : (system cfg).Reachable db) {n m : ℕ} (hnm : n ≤ m) {j : JobId} {a : Job}
    (hj : (polls cfg envs db n).jobs.find j = some a) : ∃ a', (polls cfg envs db m).jobs.find j = some a' := by
  induction hnm with
  | refl => exact ⟨a, hj⟩
  | @step m _ ih =>
    obtain ⟨a', ha'⟩ := ih
    have hinv := inv_of_reachable (reachable_polls h envs m)
    let l : Licence := { mint := True, claim := True }
    have hsteps : Steps cfg l (polls cfg envs db m).core (polls cfg envs db (m + 1)).core := by
      refine exec_of_wp (P := fun db' : Db => Steps cfg l (polls cfg envs db m).core db'.core) ?_
      exact wp_bind.mpr (wp_claimFirst trivial trivial hinv _)
    obtain ⟨b, hb, -⟩ := hsteps.keepsJob ha'
    exact ⟨b, hb⟩

/-- The waiting jobs among the rows of the queue. -/
def Db.waiting (db : Db) : Finset ℕ :=
  (Finset.range db.jobs.nextId).filter fun k => ∃ a ∈ db.jobs.find k, a.status = .pending

theorem Db.mem_waiting {k : JobId} : k ∈ db.waiting ↔ ∃ a, db.Waits k a := by
  simp only [waiting, Finset.mem_filter, Finset.mem_range, Option.mem_def, Waits, and_iff_right_iff_imp]
  rintro ⟨a, ha, -⟩
  exact Table.lt_nextId_of_find ha

theorem Polled.waiting_lt {tried : List JobId} {db' : Db} (ht : Polled env db tried db') {c : JobId} (hc : c ∈ tried) :
    db'.waiting.card < db.waiting.card := by
  refine Finset.card_lt_card ((Finset.ssubset_iff_of_subset fun k hk => ?_).mpr ⟨c, ?_, ?_⟩)
  · obtain ⟨a, ha⟩ := Db.mem_waiting.mp hk
    exact Db.mem_waiting.mpr ⟨a, ((ht.waits k a).mp ha).1⟩
  · obtain ⟨a, ha, -⟩ := ht.available c hc
    exact Db.mem_waiting.mpr ⟨a, ha⟩
  · rw [Db.mem_waiting]
    rintro ⟨a, ha⟩
    exact ((ht.waits c a).mp ha).2 hc

theorem Job.due_mono {now later : Time} (hle : now ≤ later) {job : Job} (hd : job.due now = true) :
    job.due later = true := by
  simp only [Job.due, decide_eq_true_eq] at hd ⊢
  exact ⟨hd.1, fun t ht => (hd.2 t ht).trans hle⟩

theorem allAvailable_polls (h : (system cfg).Reachable db) (ha : QueueAvailable envs db) (n : ℕ) :
    (polls cfg envs db n).AllAvailable (envs n) := by
  intro j job hj hd
  have hw : db.Waits j job := waits_of_polls h (Nat.zero_le n) (Job.due_waits hj hd)
  exact ha n j job hw.1 hd

/-- A poll over readable sources returns, and unless it resolves every due job it claims
one of the waiting ones. -/
theorem poll_returns (h : (system cfg).Reachable db) (ha : QueueAvailable envs db) (n : ℕ) :
    ∃ r tried, claimNextJob cfg (envs n) (polls cfg envs db n) = (.ok r, polls cfg envs db (n + 1)) ∧
      Polled (envs n) (polls cfg envs db n) tried (polls cfg envs db (n + 1)) ∧
      ((∃ c, c ∈ tried) ∨ tried = ((polls cfg envs db n).dueJobs (envs n).now).map Prod.fst) := by
  have hinv := inv_of_reachable (reachable_polls h envs n)
  have hpoll : wp (claimNextJob cfg (envs n)) _ _ (polls cfg envs db n) := wp_claimNextJob_polled hinv
  have hwp := wp_mono hpoll (fun _ _ m => m) (fun _ _ he => he.2 (allAvailable_polls h ha n))
  obtain ⟨r, db', hrun, tried, ht, hsome, hnone⟩ := hwp.exists_ok
  have hnext : polls cfg envs db (n + 1) = db' := by
    change (claimNextJob cfg (envs n) (polls cfg envs db n)).2 = db'
    rw [hrun]
  rw [hnext]
  refine ⟨r, tried, hrun, ht, ?_⟩
  cases r with
  | none => exact .inr (hnone rfl)
  | some c => exact .inl ⟨c, hsome c rfl⟩

/-- Readable sources: the polls serve a due job, by induction on the number of waiting jobs. -/
theorem served_of_available (h : (system cfg).Reachable db) (hclock : Monotone fun n => (envs n).now)
    (ha : QueueAvailable envs db) {k n : ℕ} (hk : (polls cfg envs db n).waiting.card ≤ k) {j : JobId} {job : Job}
    (hj : (polls cfg envs db n).jobs.find j = some job) (hd : job.due (envs n).now = true) :
    ∃ m, n ≤ m ∧ ∃ job', (polls cfg envs db m).jobs.find j = some job' ∧ job'.status ≠ .pending := by
  induction k generalizing n with
  | zero =>
    have hmem : j ∈ (polls cfg envs db n).waiting := Db.mem_waiting.mpr ⟨job, Job.due_waits hj hd⟩
    have hcard := Finset.card_pos.mpr ⟨j, hmem⟩
    omega
  | succ k ih =>
    obtain ⟨r, tried, -, ht, htried⟩ := poll_returns h ha n
    obtain ⟨job', hj'⟩ := polls_keepsJob h (Nat.le_succ n) hj
    by_cases hst : job'.status = .pending
    · -- Still waiting, so its row is the same and the poll claimed another job.
      obtain ⟨hw, hnot⟩ := (ht.waits j job').mp ⟨hj', hst⟩
      obtain rfl := Option.some.inj (hj.symm.trans hw.1)
      rcases htried with ⟨c, hc⟩ | rfl
      · have hlt := ht.waiting_lt hc
        have hdue : job.due (envs (n + 1)).now = true := Job.due_mono (hclock (Nat.le_succ n)) hd
        obtain ⟨m, hm, hserved⟩ := ih (n := n + 1) (by omega) hj' hdue
        exact ⟨m, by omega, hserved⟩
      · exact absurd (mem_dueJobs.mpr ⟨job, hj, hd⟩) hnot
    · exact ⟨n + 1, Nat.le_succ n, job', hj', hst⟩

/-- A due job whose source cannot be read is never taken. -/
theorem waits_of_unavailable (h : (system cfg).Reachable db)
    (hquiet : ∀ n, (envs n).canonical = (envs 0).canonical) {j : JobId} {job : Job} (hw : db.Waits j job)
    (hno : sourceAvailable (envs 0).canonical job.key.target = false) (n : ℕ) :
    (polls cfg envs db n).Waits j job := by
  induction n with
  | zero => exact hw
  | succ n ih =>
    obtain ⟨tried, ht⟩ := polls_succ_polled h envs n
    refine (ht.waits j job).mpr ⟨ih, fun hc => ?_⟩
    obtain ⟨a, ha, hav⟩ := ht.available j hc
    obtain rfl := Option.some.inj (ih.1.symm.trans ha.1)
    rw [hquiet n, hno] at hav
    cases hav

/-- Polls serve every due job without raising as long as the sources of due jobs can be
read; over unchanged canonical tables they do so only then. -/
theorem polls_drain_queue (h : (system cfg).Reachable db) (envs : ℕ → Env)
    (hclock : Monotone fun n => (envs n).now) :
    (QueueAvailable envs db → Drains cfg envs db) ∧
      ((∀ n, (envs n).canonical = (envs 0).canonical) → (Drains cfg envs db ↔ QueueAvailable envs db)) := by
  have hdrains : QueueAvailable envs db → Drains cfg envs db := by
    intro ha
    constructor
    · intro n
      obtain ⟨r, -, hrun, -⟩ := poll_returns h ha n
      exact ⟨r, hrun⟩
    · intro n j job hj hd
      exact served_of_available h hclock ha le_rfl hj hd
  refine ⟨hdrains, fun hquiet => ⟨fun hd n j job hj hdue => ?_, hdrains⟩⟩
  by_contra hno
  rw [Bool.not_eq_true, hquiet n] at hno
  have hstuck : ∀ m, (polls cfg envs db m).Waits j job := waits_of_unavailable h hquiet (Job.due_waits hj hdue) hno
  obtain ⟨m, -, job', hj', hst⟩ := hd.served n j job (hstuck n).1 hdue
  exact hst (Option.some.inj ((hstuck m).1.symm.trans hj') ▸ (hstuck m).2)

end Polls

/-- The phonebook edited once, its job waiting. -/
def phonebookEdited : Db :=
  runCalls sampleConfig {} [(phonebookEnv 0 1, .markDirty phonebookTarget none)]

/-- A minute later the polls begin, one a second. -/
def phonebookPolls (n : ℕ) : Env := phonebookEnv ((60 + n) * 1000000) 1

theorem phonebookEdited_drains : Monotone (fun n => (phonebookPolls n).now) ∧
    Drains sampleConfig phonebookPolls phonebookEdited := by
  have hclock : Monotone fun n => (phonebookPolls n).now := fun n m h => by
    change (60 + n) * 1000000 ≤ (60 + m) * 1000000
    omega
  refine ⟨hclock, (polls_drain_queue (reachable_runCalls (.init Migrated.empty) _) phonebookPolls hclock).1 ?_⟩
  intro n j job hj _
  have hkeys : ∀ e ∈ phonebookEdited.jobs.entries, e.2.key.target = phonebookTarget := by decide +kernel
  rw [hkeys (j, job) (Table.mem_entries.mpr hj)]
  rfl

/-- A job whose dataset code is gone, in front of a phonebook job. -/
def retiredCodeFirst : Db :=
  let maps : ScopeKey := ⟨.department, ⟨some 1, none, .unregistered "department_maps"⟩⟩
  let phonebook : ScopeKey := ⟨.department, phonebookTarget⟩
  let job (key : ScopeKey) (i : ScopeId) : Job :=
    { key := key, scopeState := i, sourceRevision := 0, triggerType := .dataChange, createdAt := i }
  { scopes := ⟨[{ key := maps }, { key := phonebook }]⟩
    jobs := ⟨[job maps 0, job phonebook 1]⟩ }

/-- Every poll raises on the first job, and the phonebook job behind it waits for ever. -/
theorem retiredCodeFirst_starves : (system sampleConfig).Reachable retiredCodeFirst ∧
    (∀ n, ∃ e, claimNextJob sampleConfig (phonebookPolls n) (polls sampleConfig phonebookPolls retiredCodeFirst n) =
      (.error e, retiredCodeFirst)) ∧
    ∃ job, retiredCodeFirst.jobs.find 1 = some job ∧
      (∀ n, job.due (phonebookPolls n).now = true ∧
        sourceAvailable (phonebookPolls n).canonical job.key.target = true) ∧
      ∀ n, (polls sampleConfig phonebookPolls retiredCodeFirst n).Waits 1 job := by
  have hraise : ∀ n, claimNextJob sampleConfig (phonebookPolls n) retiredCodeFirst =
      (.error (.datasetRegistryError "Unknown dataset type code."), retiredCodeFirst) := fun _ => rfl
  have hfixed : ∀ n, polls sampleConfig phonebookPolls retiredCodeFirst n = retiredCodeFirst := by
    intro n
    induction n with
    | zero => rfl
    | succ n ih => simp only [polls, ih, exec, hraise]
  refine ⟨.init (show Migrated sampleConfig retiredCodeFirst by decide +kernel),
    fun n => ⟨.datasetRegistryError "Unknown dataset type code.", ?_⟩, _, rfl, fun n => ⟨rfl, rfl⟩, fun n => ?_⟩
  · rw [hfixed n]
    exact hraise n
  · rw [hfixed n]
    exact ⟨rfl, rfl⟩

end FireDash.Publications
