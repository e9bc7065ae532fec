import FireDash.Publications.Fallback

/-! The progress of the retention passes: which publications one pass processes, and how many
passes leave none to process. -/
namespace FireDash.Publications

open Tx

/-- The conditions that `_process_candidate` checks under its locks hold. -/
def Db.processable (db : Db) (cfg : Config) (canonical : Canonical) (now : Time) (id : PublicationId) : Bool :=
  db.retentionOutcome cfg canonical id now = .ok .obsoleted ∨ db.retentionOutcome cfg canonical id now = .ok .snapshotPurged

/-- The discovery may list the publication. -/
def Db.retentionCandidate (db : Db) (cfg : Config) (canonical : Canonical) (now : Time) (id : PublicationId) : Bool :=
  match db.publications.find id with
  | none => false
  | some pub =>
    (pub.status = .superseded ∧ (db.scopes.find pub.scopeState).all fun s =>
      isRetainedPredecessor cfg canonical db pub.scopeState s id = .ok false) ∨
    ((pub.status = .failed ∨ pub.status = .cancelled) ∧ pub.sourceSnapshot.isSome ∧
      pub.createdAt + cfg.terminalSnapshotRetention ≤ now)

/-- The publications that the discovery may list and the recheck skips: the scope has a live job,
the version is current, or the job of a terminal attempt completed too late. -/
def Db.blockedIds (db : Db) (cfg : Config) (canonical : Canonical) (now : Time) : List PublicationId :=
  (List.range db.publications.rows.length).filter fun id =>
    db.retentionCandidate cfg canonical now id ∧ db.processable cfg canonical now id = false

/-- The discovery raises nothing and misses no terminal attempt: the dataset types of the
superseded versions are registered where they have to be, and no attempt ended before it began. -/
structure Db.RetentionReady (db : Db) (cfg : Config) : Prop where
  registered : ∀ q pub s, db.publications.find q = some pub → pub.status = .superseded →
    db.scopes.find pub.scopeState = some s → retentionGuard cfg s = .ok ()
  timely : ∀ q pub, db.publications.find q = some pub → pub.status = .failed ∨ pub.status = .cancelled →
    pub.sourceSnapshot.isSome = true → pub.createdAt ≤ terminalTimestamp pub (db.relatedJob pub.scopeState q)

variable {cfg : Config} {env : Env} {canonical : Canonical} {db : Db} {now : Time} {limit : ℕ} {q : PublicationId}

theorem lt_rows_of_find {pub : Publication} (h : db.publications.find q = some pub) :
    q < db.publications.rows.length :=
  (List.getElem?_eq_some_iff.mp h).1

theorem Db.processable_row (h : db.processable cfg canonical now q = true) :
    ∃ pub s, db.publications.find q = some pub ∧ db.scopes.find pub.scopeState = some s := by
  obtain ho | ho := of_decide_eq_true h
  · obtain hskip | ⟨pub, s, hp, hs, -⟩ := Db.retentionOutcome_cases ho
    · cases hskip
    · exact ⟨pub, s, hp, hs⟩
  · obtain hskip | ⟨pub, s, hp, hs, -⟩ := Db.retentionOutcome_cases ho
    · cases hskip
    · exact ⟨pub, s, hp, hs⟩

/-! ### The discovery -/

theorem restoreAwareCandidates_returns (haware : cfg.retentionRestoreAwareEnabled = true) (hu : db.UniqueVersions)
    {scopes : List (ScopeId × Scope)} (hs : ∀ e ∈ scopes, retentionGuard cfg e.2 = .ok ()) (found : List PublicationId) :
    ∃ ids, restoreAwareCandidates cfg canonical db limit found scopes = .ok ids := by
  induction scopes generalizing found with
  | nil => exact ⟨found, rfl⟩
  | cons e rest ih =>
    rw [List.forall_mem_cons] at hs
    obtain ⟨i, s⟩ := e
    -- A scope whose versions can be rechecked has a list of restorable ones.
    have hret : isRetainedPredecessor cfg canonical db i s 0 = _ := isRetainedPredecessor_eq hu canonical i s 0
    rw [hs.1] at hret
    unfold isRetainedPredecessor at hret
    rw [if_pos haware] at hret
    obtain ⟨kept, hkept, -⟩ := bind_eq_ok.mp hret
    unfold restoreAwareCandidates
    rw [hkept, ok_bind]
    dsimp only
    split
    · exact ⟨_, rfl⟩
    · exact ih hs.2 _

theorem Db.RetentionReady.discovers (h : db.RetentionReady cfg) (hu : db.UniqueVersions) :
    ∃ ids, candidateIds cfg canonical db limit now = .ok ids := by
  have hsuperseded : ∃ ids, supersededCandidateIds cfg canonical db limit = .ok ids := by
    unfold supersededCandidateIds
    by_cases haware : cfg.retentionRestoreAwareEnabled = true
    · rw [if_pos haware]
      refine restoreAwareCandidates_returns haware hu (fun e he => ?_) []
      obtain ⟨hentry, hany⟩ := List.mem_filter.mp he
      obtain ⟨q, pub, hq, hp⟩ := Table.any_eq_true.mp hany
      obtain ⟨hi, hst⟩ := of_decide_eq_true hp
      exact h.registered q pub e.2 hq hst (by rw [hi]; exact Table.mem_entries.mp hentry)
    · rw [if_neg haware]
      exact ⟨_, rfl⟩
  obtain ⟨ids, hids⟩ := hsuperseded
  unfold candidateIds
  rw [hids, ok_bind]
  split
  · exact ⟨_, rfl⟩
  · exact ⟨_, rfl⟩

/-- The batch lists candidates only, and all that can be processed unless it is full. -/
structure Batched (db : Db) (cfg : Config) (canonical : Canonical) (now : Time) (limit : ℕ) (ids : List PublicationId) :
    Prop where
  nodup : ids.Nodup
  candidate : ∀ id ∈ ids, db.retentionCandidate cfg canonical now id = true
  complete : ids.length < limit → ∀ id, db.processable cfg canonical now id = true → id ∈ ids

theorem candidateIds_batched (h : db.RetentionReady cfg) (hu : db.UniqueVersions) {ids : List PublicationId}
    (hids : candidateIds cfg canonical db limit now = .ok ids) : Batched db cfg canonical now limit ids := by
  have hnodup := candidateIds_nodup hu hids
  unfold candidateIds at hids
  obtain ⟨superseded, hsup, hids⟩ := bind_eq_ok.mp hids
  have hd := supersededCandidateIds_discovered hu hsup
  have hcandidate : ∀ id ∈ superseded, db.retentionCandidate cfg canonical now id = true := by
    intro id hid
    obtain ⟨pub, hp, hst⟩ := hd.superseded id hid
    unfold Db.retentionCandidate
    rw [hp]
    refine decide_eq_true (.inl ⟨hst, ?_⟩)
    cases hs : db.scopes.find pub.scopeState with
    | none => rfl
    | some s => exact decide_eq_true (hd.sound id pub s hp hs hid)
  have hobsolete : superseded.length < limit → ∀ id, db.retentionOutcome cfg canonical id now = .ok .obsoleted →
      id ∈ superseded := by
    intro hlt id ho
    obtain hskip | ⟨pub, s, hp, hs, -, ⟨-, hst, -, hret⟩ | ⟨hpurge, -⟩⟩ := Db.retentionOutcome_cases ho
    · cases hskip
    · exact hd.complete hlt id pub s hp hst hs hret
    · cases hpurge
  by_cases hfull : limit ≤ superseded.length
  · rw [if_pos hfull] at hids
    obtain rfl := Except.ok.inj hids
    exact ⟨hnodup, hcandidate, fun hlt => by omega⟩
  · rw [if_neg hfull] at hids
    obtain rfl := Except.ok.inj hids
    have hterminal : ∀ id, id ∈ (byCreation (db.publications.filter fun p => (p.status = .failed ∨ p.status = .cancelled) ∧
        p.sourceSnapshot.isSome ∧ p.createdAt + cfg.terminalSnapshotRetention ≤ now)).map Prod.fst ↔
        ∃ pub, db.publications.find id = some pub ∧ (pub.status = .failed ∨ pub.status = .cancelled) ∧
          pub.sourceSnapshot.isSome = true ∧ pub.createdAt + cfg.terminalSnapshotRetention ≤ now := by
      intro id
      rw [mem_map_byCreation]
      simp [Table.mem_filter]
    refine ⟨hnodup, fun id hid => ?_, fun hlt id hp => ?_⟩
    · obtain hid | hid := List.mem_append.mp hid
      · exact hcandidate id hid
      · obtain ⟨pub, hpub, hrow⟩ := (hterminal id).mp (List.mem_of_mem_take hid)
        unfold Db.retentionCandidate
        rw [hpub]
        exact decide_eq_true (.inr hrow)
    · rw [List.length_append] at hlt
      obtain ho | ho := of_decide_eq_true hp
      · exact List.mem_append_left _ (hobsolete (by omega) id ho)
      · obtain hskip | ⟨pub, s, hpub, hs, -, ⟨hob, -⟩ | ⟨-, hst, hsn, hdue⟩⟩ := Db.retentionOutcome_cases ho
        · cases hskip
        · cases hob
        · have htimely := h.timely id pub hpub hst hsn
          have hin := (hterminal id).mpr ⟨pub, hpub, hst, hsn, le_trans (Nat.add_le_add_right htimely _) hdue⟩
          refine List.mem_append_right _ ?_
          unfold terminalCandidateIds at hlt ⊢
          rw [List.length_take] at hlt
          rw [List.take_of_length_le (by omega)]
          exact hin

/-- A batch larger than the number of blocked publications holds one that can be processed. -/
theorem Batched.progress {ids : List PublicationId} (h : Batched db cfg canonical now limit ids)
    (hblocked : (db.blockedIds cfg canonical now).length < limit) (hq : db.processable cfg canonical now q = true) :
    ∃ id ∈ ids, db.processable cfg canonical now id = true := by
  by_contra hnone
  push Not at hnone
  have hsub : ids ⊆ db.blockedIds cfg canonical now := by
    intro id hid
    have hcandidate := h.candidate id hid
    have hrow : id < db.publications.rows.length := by
      unfold Db.retentionCandidate at hcandidate
      cases hp : db.publications.find id with
      | none =>
        rw [hp] at hcandidate
        cases hcandidate
      | some pub => exact lt_rows_of_find hp
    unfold Db.blockedIds
    rw [List.mem_filter, List.mem_range]
    refine ⟨hrow, decide_eq_true ⟨hcandidate, ?_⟩⟩
    have hnot := hnone id hid
    simpa using hnot
  have hle : ids.length ≤ (db.blockedIds cfg canonical now).length := (List.subperm_of_subset h.nodup hsub).length_le
  have hmem := h.complete (by omega) q hq
  exact hnone q hmem hq

/-! ### What a pass leaves -/

/-- A processed publication is settled: the recheck skips it, and no discovery lists it. -/
theorem Db.retain_settles {outcome : RetentionOutcome} (ho : db.retentionOutcome cfg canonical q now = .ok outcome)
    (hne : outcome ≠ .skipped) (t : Time) :
    (db.retain t q outcome).retentionOutcome cfg canonical q now = .ok .skipped ∧
      (db.retain t q outcome).retentionCandidate cfg canonical now q = false := by
  obtain ⟨row, hrow, hst, hsn⟩ : ∃ row, (db.retain t q outcome).publications.find q = some row ∧
      row.status ≠ .superseded ∧ ((row.status = .failed ∨ row.status = .cancelled) → row.sourceSnapshot = none) := by
    obtain hskip | ⟨pub, s, hp, hs, -, ⟨rfl, -⟩ | ⟨rfl, hst, -⟩⟩ := Db.retentionOutcome_cases ho
    · exact absurd hskip hne
    · refine ⟨pub.obsoleted, ?_, by simp [Publication.obsoleted], fun h => by simp [Publication.obsoleted] at h⟩
      simp only [Db.retain, hp, Db.retired, Db.scheduleRemoval_publications]
      change (db.publications.modify q Publication.obsoleted).find q = _
      simp [hp]
    · refine ⟨{ pub with sourceSnapshot := none }, ?_, ?_, fun _ => rfl⟩
      · simp only [Db.retain, hp]
        change (db.publications.modify q _).find q = _
        simp [hp]
      · obtain h | h := hst <;> simp [h]
  constructor
  · unfold Db.retentionOutcome
    rw [hrow]
    dsimp only
    cases (db.retain t q outcome).scopes.find row.scopeState with
    | none => rfl
    | some s =>
      dsimp only
      split
      · rfl
      · by_cases hterm : row.status = .failed ∨ row.status = .cancelled
        · rw [if_pos (.inr (.inl (by rw [hsn hterm]; rfl)))]
        · rw [not_or] at hterm
          rw [if_pos (.inl hterm)]
  · unfold Db.retentionCandidate
    rw [hrow]
    dsimp only
    rw [decide_eq_false_iff_not]
    rintro (⟨h, -⟩ | ⟨hterm, h, -⟩)
    · exact hst h
    · rw [hsn hterm] at h
      cases h

/-- Another publication stays a candidate, or none. -/
theorem Db.retain_candidate (hu : db.UniqueVersions) {outcome : RetentionOutcome}
    (ho : db.retentionOutcome cfg canonical q now = .ok outcome) (hne : outcome ≠ .skipped) (t : Time)
    {k : PublicationId} (hk : k ≠ q) :
    (db.retain t q outcome).retentionCandidate cfg canonical now k = db.retentionCandidate cfg canonical now k := by
  have hframe := Db.retain_frame ho hne t
  unfold Db.retentionCandidate
  rw [hframe.find hk]
  cases db.publications.find k with
  | none => rfl
  | some pub =>
    have hscope := hframe.scopes pub.scopeState
    cases hs : db.scopes.find pub.scopeState with
    | none =>
      have hs' : (db.retain t q outcome).scopes.find pub.scopeState = none := by simpa [hs] using hscope
      simp only [hs, hs', Option.all_none]
    | some s =>
      rw [hs, Option.map_some, Option.map_eq_some_iff] at hscope
      obtain ⟨s', hs', he⟩ := hscope
      obtain ⟨hkey, -⟩ := Prod.mk.inj he
      have hret := hframe.isRetained hu hkey (Db.retentionOutcome_not_retained hu ho hne hs) hk
      simp only [hs, hs', Option.all_some, hret]

theorem Db.RetentionReady.retain (h : db.RetentionReady cfg) {outcome : RetentionOutcome}
    (ho : db.retentionOutcome cfg canonical q now = .ok outcome) (hne : outcome ≠ .skipped) (t : Time) :
    (db.retain t q outcome).RetentionReady cfg := by
  have hframe := Db.retain_frame ho hne t
  obtain ⟨hskip, hcandidate⟩ := Db.retain_settles ho hne t
  constructor
  · intro k pub s' hk hst hs'
    have hk₀ := hframe.passFrame.superseded k pub hk hst
    have hscope := hframe.scopes pub.scopeState
    rw [hs', Option.map_some] at hscope
    obtain ⟨s, hs, he⟩ := Option.map_eq_some_iff.mp hscope.symm
    have hguard := h.registered k pub s hk₀ hst hs
    unfold retentionGuard at hguard ⊢
    rw [← (Prod.mk.inj he).1]
    exact hguard
  · intro k pub hk hterm hsn
    by_cases hkq : k = q
    · -- The processed attempt has no snapshot any more.
      subst hkq
      exfalso
      obtain hno | ⟨row, s, hp, -, -, ⟨rfl, -⟩ | ⟨rfl, -⟩⟩ := Db.retentionOutcome_cases ho
      · exact hne hno
      · simp only [Db.retain, hp, Db.retired, Db.scheduleRemoval_publications] at hk
        change (db.publications.modify k Publication.obsoleted).find k = _ at hk
        rw [Table.find_modify, if_pos rfl, hp] at hk
        obtain rfl := Option.some.inj hk
        simp [Publication.obsoleted] at hterm
      · simp only [Db.retain, hp] at hk
        change (db.publications.modify k _).find k = _ at hk
        rw [Table.find_modify, if_pos rfl, hp] at hk
        obtain rfl := Option.some.inj hk
        cases hsn
    · rw [hframe.find hkq] at hk
      have htimely := h.timely k pub hk hterm hsn
      unfold Db.relatedJob at htimely ⊢
      rw [hframe.jobs]
      exact htimely

/-- The state behind a run over a batch: the candidates it could process are settled, and nothing
else becomes blocked or processable. -/
structure Db.Settles (db t : Db) (cfg : Config) (canonical : Canonical) (now : Time) (ids : List PublicationId) : Prop where
  unique : t.UniqueVersions
  ready : t.RetentionReady cfg
  rows : t.publications.rows.length = db.publications.rows.length
  candidate : ∀ k, t.retentionCandidate cfg canonical now k = true → t.processable cfg canonical now k = false →
    db.retentionCandidate cfg canonical now k = true ∧ db.processable cfg canonical now k = false
  processable : ∀ k, t.processable cfg canonical now k = true → db.processable cfg canonical now k = true ∧ k ∉ ids

theorem Db.Settles.none (hu : db.UniqueVersions) (hr : db.RetentionReady cfg) : db.Settles db cfg canonical now [] where
  unique := hu
  ready := hr
  rows := rfl
  candidate _ hc hp := ⟨hc, hp⟩
  processable _ hp := ⟨hp, List.not_mem_nil⟩

theorem Db.processable_eq_false {outcome : RetentionOutcome} (ho : db.retentionOutcome cfg canonical q now = .ok outcome) :
    db.processable cfg canonical now q = false ↔ outcome = .skipped := by
  unfold Db.processable
  rw [ho]
  cases outcome <;> simp

/-- One candidate of a run. -/
theorem Db.Settles.step (hu : db.UniqueVersions) (hr : db.RetentionReady cfg) {outcome : RetentionOutcome}
    (ho : db.retentionOutcome cfg canonical q now = .ok outcome) (t : Time) :
    db.Settles (db.retain t q outcome) cfg canonical now [q] := by
  by_cases hne : outcome = .skipped
  · rw [hne, Db.retain_skipped]
    have hq := (Db.processable_eq_false ho).mpr hne
    have hsame : db.Settles db cfg canonical now [] := .none hu hr
    refine ⟨hu, hr, rfl, hsame.candidate, fun k hk => ⟨hk, fun hmem => ?_⟩⟩
    obtain rfl := List.mem_singleton.mp hmem
    rw [hq] at hk
    cases hk
  · obtain ⟨hskip, hcandidate⟩ := Db.retain_settles ho hne t
    have hframe := Db.retain_frame ho hne t
    have hother : ∀ k, k ≠ q → (db.retain t q outcome).processable cfg canonical now k =
        db.processable cfg canonical now k := by
      intro k hk
      unfold Db.processable
      rw [Db.retain_outcome hu ho hk]
    refine ⟨hframe.uniqueVersions hu, hr.retain ho hne t, ?_, fun k hc hp => ?_, fun k hp => ?_⟩
    · obtain ⟨f, hf, -⟩ := hframe.publications
      rw [hf]
      exact List.length_modify ..
    · have hk : k ≠ q := by
        rintro rfl
        rw [hcandidate] at hc
        cases hc
      rw [Db.retain_candidate hu ho hne t hk] at hc
      rw [hother k hk] at hp
      exact ⟨hc, hp⟩
    · have hk : k ≠ q := by
        rintro rfl
        rw [(Db.processable_eq_false hskip).mpr rfl] at hp
        cases hp
      rw [hother k hk] at hp
      exact ⟨hp, fun hmem => hk (List.mem_singleton.mp hmem)⟩

theorem Db.Settles.trans {t u : Db} {ids ids' : List PublicationId} (h : db.Settles t cfg canonical now ids)
    (h' : t.Settles u cfg canonical now ids') : db.Settles u cfg canonical now (ids ++ ids') where
  unique := h'.unique
  ready := h'.ready
  rows := h'.rows.trans h.rows
  candidate k hc hp := by
    obtain ⟨hc', hp'⟩ := h'.candidate k hc hp
    exact h.candidate k hc' hp'
  processable k hp := by
    obtain ⟨hp', hnot'⟩ := h'.processable k hp
    obtain ⟨hp'', hnot⟩ := h.processable k hp'
    exact ⟨hp'', fun hmem => (List.mem_append.mp hmem).elim hnot hnot'⟩

/-- A run over distinct candidates that all get a verdict settles every one of them. -/
theorem processCandidates_settles (hu : db.UniqueVersions) (hr : db.RetentionReady cfg) {ids : List PublicationId}
    (hnd : ids.Nodup) (hok : ∀ k ∈ ids, ∃ outcome, db.retentionOutcome cfg env.canonical k now = .ok outcome)
    (result : RetentionResult) :
    wp (processCandidates cfg env now false ids result) (fun _ t => db.Settles t cfg env.canonical now ids)
      (fun _ _ => False) db := by
  induction ids generalizing db result with
  | nil => exact .none hu hr
  | cons k rest ih =>
    rw [List.forall_mem_cons] at hok
    obtain ⟨⟨outcome, ho⟩, hrest⟩ := hok
    obtain ⟨hk, hnd⟩ := List.nodup_cons.mp hnd
    simp only [processCandidates, wp_bind]
    refine wp_mono (wp_processCandidate_outcome k now false) ?_ fun e _ he => ?_
    · rintro outcome' db₁ ⟨ho', rfl⟩
      simp only [Bool.false_eq_true, if_false]
      have hstep : db.Settles (db.retain env.now k outcome') cfg env.canonical now [k] := .step hu hr ho' env.now
      have hverdicts : ∀ j ∈ rest, ∃ o, (db.retain env.now k outcome').retentionOutcome cfg env.canonical j now = .ok o := by
        intro j hj
        rw [Db.retain_outcome hu ho' fun he => hk (he ▸ hj)]
        exact hrest j hj
      exact wp_mono (ih hstep.unique hstep.ready hnd hverdicts _) (fun _ _ h => hstep.trans h) fun _ _ h => h
    · rw [ho] at he
      cases he.1

/-! ### Passes in a row -/

/-- A pass, run for its effect. -/
def retentionPass (cfg : Config) (env : Env) (batchSize : Option ℤ) (now : Time) : Db → Db :=
  exec (runPublicationRetention cfg env batchSize now false)

/-- The publications that can be processed. -/
def Db.processableIds (db : Db) (cfg : Config) (canonical : Canonical) (now : Time) : List PublicationId :=
  (List.range db.publications.rows.length).filter fun id => db.processable cfg canonical now id

theorem Db.mem_processableIds : q ∈ db.processableIds cfg canonical now ↔ db.processable cfg canonical now q = true := by
  unfold Db.processableIds
  rw [List.mem_filter, List.mem_range, and_iff_right_iff_imp]
  intro h
  obtain ⟨pub, s, hp, -⟩ := Db.processable_row h
  exact lt_rows_of_find hp

/-- A pass returns, settles its batch and counts the candidates it processed. -/
theorem pass_settles (env : Env) (now : Time) (hu : db.UniqueVersions) (hr : db.RetentionReady cfg) {batchSize : Option ℤ}
    (hlimit : 1 ≤ retentionLimit cfg batchSize) :
    ∃ ids result t, runPublicationRetention cfg env batchSize now false db = (.ok result, t) ∧
      db.Settles t cfg env.canonical now ids ∧
      Batched db cfg env.canonical now (retentionLimit cfg batchSize).toNat ids ∧
      (∀ q ∈ ids, db.processable cfg env.canonical now q = true → 1 ≤ result.obsoleted + result.snapshotsPurged) := by
  obtain ⟨ids, hids⟩ : ∃ ids, candidateIds cfg env.canonical db (retentionLimit cfg batchSize).toNat now = .ok ids :=
    hr.discovers hu
  have hnodup := candidateIds_nodup hu hids
  have hbatch : db.retentionBatch cfg env.canonical batchSize now = ids := by
    unfold Db.retentionBatch
    rw [if_pos hlimit, hids]
  have hverdicts : ∀ k ∈ ids, ∃ outcome, db.retentionOutcome cfg env.canonical k now = .ok outcome := by
    intro k hk
    rw [← hbatch] at hk
    exact Db.retentionBatch_verdict hu hk
  have hsettles := processCandidates_settles hu hr hnodup hverdicts {}
  have hrun : runPublicationRetention cfg env batchSize now false db = _ :=
    runPublicationRetention_eq batchSize now false
  rw [if_pos hlimit, hids] at hrun
  dsimp only at hrun
  unfold wp at hsettles
  cases hx : processCandidates cfg env now false ids {} db with
  | mk r t =>
    rw [hx] at hsettles hrun
    cases r with
    | error e => exact hsettles.elim
    | ok result =>
      refine ⟨ids, result, t, hrun, hsettles, candidateIds_batched hr hu hids, fun q hq hp => ?_⟩
      have htally : (processCandidates cfg env now false ids {} db).1 = _ := processCandidates_counts hu now ids hnodup {}
      rw [hx] at htally
      obtain ⟨hobsoleted, hpurged⟩ := Db.tally_counts htally.symm
      obtain ho | ho := of_decide_eq_true hp
      · have hpos : 0 < ids.countP fun id => db.retentionOutcome cfg env.canonical id now = .ok .obsoleted :=
          List.countP_pos_iff.mpr ⟨q, hq, decide_eq_true ho⟩
        omega
      · have hpos : 0 < ids.countP fun id => db.retentionOutcome cfg env.canonical id now = .ok .snapshotPurged :=
          List.countP_pos_iff.mpr ⟨q, hq, decide_eq_true ho⟩
        omega

/-- No pass adds to the blocked publications. -/
theorem Db.Settles.blocked_le {t : Db} {ids : List PublicationId} (h : db.Settles t cfg canonical now ids) :
    (t.blockedIds cfg canonical now).length ≤ (db.blockedIds cfg canonical now).length := by
  apply (List.subperm_of_subset (List.nodup_range.filter _) _).length_le
  intro k hk
  obtain ⟨hrow, hblocked⟩ := List.mem_filter.mp hk
  obtain ⟨hc, hp⟩ := of_decide_eq_true hblocked
  rw [h.rows] at hrow
  exact List.mem_filter.mpr ⟨hrow, decide_eq_true (h.candidate k hc hp)⟩

/-- A pass that has something to process leaves less. -/
theorem Db.Settles.processable_lt {t : Db} {ids : List PublicationId} (h : db.Settles t cfg canonical now ids)
    (hq : q ∈ ids) (hp : db.processable cfg canonical now q = true) :
    (t.processableIds cfg canonical now).length < (db.processableIds cfg canonical now).length := by
  have hmem := Db.mem_processableIds.mpr hp
  have hle : (t.processableIds cfg canonical now).length ≤ ((db.processableIds cfg canonical now).erase q).length := by
    apply (List.subperm_of_subset (List.nodup_range.filter _) _).length_le
    intro k hk
    obtain ⟨hk, hnot⟩ := h.processable k (Db.mem_processableIds.mp hk)
    have hne : k ≠ q := fun he => hnot (he ▸ hq)
    exact (List.mem_erase_of_ne hne).mpr (Db.mem_processableIds.mpr hk)
  have hlength := List.length_erase_of_mem hmem
  have hpos := List.length_pos_of_mem hmem
  omega

theorem passes_drain {batchSize : Option ℤ} (n : ℕ) (hu : db.UniqueVersions) (hr : db.RetentionReady cfg)
    (hblocked : (db.blockedIds cfg env.canonical now).length < (retentionLimit cfg batchSize).toNat)
    (hn : (db.processableIds cfg env.canonical now).length ≤ n) :
    ((retentionPass cfg env batchSize now)^[n] db).processableIds cfg env.canonical now = [] := by
  induction n generalizing db with
  | zero => exact List.length_eq_zero_iff.mp (Nat.le_zero.mp hn)
  | succ n ih =>
    rw [Function.iterate_succ_apply]
    have hlimit : 1 ≤ retentionLimit cfg batchSize := by omega
    obtain ⟨ids, result, t, hrun, hsettles, hbatched, -⟩ :=
      pass_settles env now hu hr hlimit
    have ht : retentionPass cfg env batchSize now db = t := by
      unfold retentionPass exec
      rw [hrun]
    rw [ht]
    have hle := hsettles.blocked_le
    refine ih hsettles.unique hsettles.ready (by omega) ?_
    cases hp : db.processableIds cfg env.canonical now with
    | nil =>
      have hnone : t.processableIds cfg env.canonical now = [] := by
        rw [List.eq_nil_iff_forall_not_mem]
        intro k hk
        have hk' := Db.mem_processableIds.mpr (hsettles.processable k (Db.mem_processableIds.mp hk)).1
        rw [hp] at hk'
        cases hk'
      rw [hnone]
      exact Nat.zero_le _
    | cons q rest =>
      have hq : db.processable cfg env.canonical now q = true := Db.mem_processableIds.mp (hp ▸ List.mem_cons_self)
      obtain ⟨k, hk, hkp⟩ := hbatched.progress hblocked hq
      have hlt := hsettles.processable_lt hk hkp
      omega

/-- While fewer candidates are blocked than a batch holds, a pass processes a publication if one
can be processed at all, and as many passes as there are publications leave none. -/
theorem retention_progresses (hu : db.UniqueVersions) (hr : db.RetentionReady cfg) (batchSize : Option ℤ) (now : Time)
    (hblocked : (db.blockedIds cfg env.canonical now).length < (retentionLimit cfg batchSize).toNat) :
    ((∃ q, db.processable cfg env.canonical now q = true) →
      ∃ result t, runPublicationRetention cfg env batchSize now false db = (.ok result, t) ∧
        1 ≤ result.obsoleted + result.snapshotsPurged) ∧
    ∀ n, db.publications.rows.length ≤ n → ∀ q,
      ((retentionPass cfg env batchSize now)^[n] db).processable cfg env.canonical now q = false := by
  constructor
  · rintro ⟨q, hq⟩
    have hlimit : 1 ≤ retentionLimit cfg batchSize := by omega
    obtain ⟨ids, result, t, hrun, -, hbatched, hcount⟩ :=
      pass_settles env now hu hr hlimit
    obtain ⟨k, hk, hkp⟩ := hbatched.progress hblocked hq
    exact ⟨result, t, hrun, hcount k hk hkp⟩
  · intro n hn q
    have hle : (db.processableIds cfg env.canonical now).length ≤ n :=
      ((List.length_filter_le _ _).trans_eq List.length_range).trans hn
    have hdrained := passes_drain n hu hr hblocked hle
    rw [Bool.eq_false_iff]
    intro hq
    have hmem := Db.mem_processableIds.mpr hq
    rw [hdrained] at hmem
    cases hmem

/-- The phonebooks of two departments with two superseded versions each, and a job of the first. -/
def busyPhonebook : Db where
  scopes := ⟨[{ key := ⟨.department, phonebookTarget⟩, currentPublishedPublication := some 2 },
    { key := ⟨.department, ⟨some 2, none, .departmentPhonebook⟩⟩, currentPublishedPublication := some 5 }]⟩
  publications := ⟨[phonebookVersion 1 1 .superseded, phonebookVersion 2 1 .superseded, phonebookVersion 3 1 .published] ++
    [phonebookVersion 1 1 .superseded, phonebookVersion 2 1 .superseded, phonebookVersion 3 1 .published].map fun p =>
      { p with scopeState := 1, key := ⟨.department, ⟨some 2, none, .departmentPhonebook⟩⟩ }⟩
  jobs := ⟨[{ key := ⟨.department, phonebookTarget⟩, scopeState := 0, sourceRevision := 3, triggerType := .dataChange,
              createdAt := 8 }]⟩

theorem busyPhonebook_unique : busyPhonebook.UniqueVersions := by
  intro p q pub pub' hp hq hs hv
  have hrows : ∀ e ∈ busyPhonebook.publications.entries, ∀ f ∈ busyPhonebook.publications.entries,
      e.2.scopeState = f.2.scopeState → e.2.versionNumber = f.2.versionNumber → e.1 = f.1 := by decide +kernel
  exact hrows _ (Table.mem_entries.mpr hp) _ (Table.mem_entries.mpr hq) hs hv

theorem busyPhonebook_ready : busyPhonebook.RetentionReady sampleConfig where
  registered _ _ _ _ _ _ := rfl
  timely q pub hq hst := by
    have hrows : ∀ e ∈ busyPhonebook.publications.entries, ¬(e.2.status = .failed ∨ e.2.status = .cancelled) := by
      decide +kernel
    exact absurd hst (hrows _ (Table.mem_entries.mpr hq))

/-- In batches of two, the pass on `busyPhonebook` reaches the second phonebook. -/
theorem busyPhonebook_progresses :
    ∃ result t, runPublicationRetention sampleConfig (phonebookEnv 9 0) (some 2) 9 false busyPhonebook =
      (.ok result, t) ∧ 1 ≤ result.obsoleted + result.snapshotsPurged :=
  (retention_progresses busyPhonebook_unique busyPhonebook_ready (some 2) 9 (by decide +kernel)).1
    ⟨3, by decide +kernel⟩

/-- In batches of one, every pass on `busyPhonebook` spends its batch on the version behind the
live job, and the version of the second phonebook that can be processed stays. -/
theorem busyPhonebook_starves :
    busyPhonebook.UniqueVersions ∧ busyPhonebook.RetentionReady sampleConfig ∧
    busyPhonebook.processable sampleConfig (phonebookEnv 9 0).canonical 9 3 = true ∧
    (runPublicationRetention sampleConfig (phonebookEnv 9 0) (some 1) 9 false busyPhonebook).1 =
      .ok { considered := 1, skipped := 1 } ∧
    ∀ n, (retentionPass sampleConfig (phonebookEnv 9 0) (some 1) 9)^[n] busyPhonebook = busyPhonebook :=
  ⟨busyPhonebook_unique, busyPhonebook_ready, by decide +kernel, by decide +kernel,
    Function.iterate_fixed (by unfold retentionPass; decide +kernel)⟩

end FireDash.Publications
