import FireDash.Lib.Nullable
import FireDash.Publications.State
import FireDash.Publications.System

/-! The state filters of the publications list: database predicates for the states that
the views derive row by row. -/
namespace FireDash.Publications

/-- `SCOPE_FILTERS`, less the empty one. -/
inductive StateFilter where
  | current
  | scheduled
  | building
  | failed
  | notPublished
  deriving DecidableEq

/-- The operational states a filter is named after. -/
def StateFilter.states : StateFilter → List OperationalState
  | .current => [.current]
  | .scheduled => [.updateQueued, .queued]
  | .building => [.building]
  | .failed => [.failed]
  | .notPublished => [.notPublished]

inductive ScopeMode where
  | department
  | station
  | all
  deriving DecidableEq

/-- A scope row with the annotations and joined columns of the list query. -/
structure AnnotatedScope where
  hasRunningJob : Bool
  hasPendingJob : Bool
  latestStatus : Option PublicationStatus
  latestSourceFingerprint : Option Fingerprint
  latestBuiltStatus : Option PublicationStatus
  currentPublished : Option PublicationId
  publishedFingerprint : Option Fingerprint
  currentSourceFingerprint : Fingerprint

def Db.annotatedScope (db : Db) (i : ScopeId) (s : Scope) : AnnotatedScope where
  hasRunningJob := db.jobs.any fun job => job.scopeState = i ∧ job.status = .running
  hasPendingJob := db.jobs.any fun job => job.scopeState = i ∧ job.status = .pending
  latestStatus := (db.latestPublication i).map (·.2.status)
  latestSourceFingerprint := (db.latestPublication i).map (·.2.sourceFingerprint)
  latestBuiltStatus := (s.latestBuiltPublication.bind db.publications.find).map (·.status)
  currentPublished := s.currentPublishedPublication
  publishedFingerprint := (db.currentPublication s).map (·.sourceFingerprint)
  currentSourceFingerprint := s.currentSourceFingerprint

namespace AnnotatedScope

open Condition

/-- The empty fingerprint is a value of its column, not NULL. -/
def dirty (row : AnnotatedScope) : Condition :=
  or (isNull row.currentPublished) <|
    or (eq (some row.currentSourceFingerprint) (some none)) <|
      or (eq row.publishedFingerprint (some none)) <|
        not (eq (some row.currentSourceFingerprint) row.publishedFingerprint)

def noActiveJob (row : AnnotatedScope) : Condition :=
  and (some (!row.hasRunningJob)) (some (!row.hasPendingJob))

/-- The predicate of a state filter. Negations of a joined column keep its NULLs, those of an
annotation drop them. -/
def selectedBy (row : AnnotatedScope) : StateFilter → Condition
  | .building => or (some row.hasRunningJob) (eq row.latestStatus (some .building))
  | .scheduled =>
    and (some (!row.hasRunningJob)) (or (some row.hasPendingJob) (eq row.latestStatus (some .staged)))
  | .failed =>
    and (and row.noActiveJob (eq row.latestStatus (some .failed))) <|
      and row.dirty <|
        or (eq row.latestSourceFingerprint (some none))
          (eq row.latestSourceFingerprint (some row.currentSourceFingerprint))
  | .current =>
    and (and row.noActiveJob <|
        and (not (isNull row.currentPublished)) (eq (some row.currentSourceFingerprint) row.publishedFingerprint)) <|
      and (not (isIn row.latestStatus [.staged, .building])) <|
        not (and (eq row.latestBuiltStatus (some .readyForReview)) (not (isNull row.latestBuiltStatus)))
  | .notPublished => and row.noActiveJob (and (isNull row.currentPublished) (isNull row.latestStatus))

end AnnotatedScope

/-- The scopes of a department under the selected scope mode. -/
def Db.listedScopes (db : Db) (department : DepartmentId) (scopeMode : ScopeMode) (station : Option Station)
    (stationInvalid : Bool) : List (ScopeId × Scope) :=
  let scopes := db.scopes.filter fun s => s.key.target.department = some department
  match scopeMode with
  | .department => scopes.filter fun e => e.2.key.target.station.isNone
  | .station =>
    if stationInvalid then []
    else
      match station with
      | some station => scopes.filter fun e => e.2.key.target.station = some station
      | none => scopes.filter fun e => e.2.key.target.station.isSome
  | .all => scopes

/-- The scopes that the list shows, before pagination. -/
def Db.filteredScopeQueryset (db : Db) (department : DepartmentId) (selectedFilter : Option StateFilter)
    (scopeMode : ScopeMode) (station : Option Station) (stationInvalid : Bool) : List (ScopeId × Scope) :=
  match selectedFilter with
  | none => db.listedScopes department scopeMode station stationInvalid
  | some f => (db.listedScopes department scopeMode station stationInvalid).filter fun e =>
      (db.annotatedScope e.1 e.2).selectedBy f = some true

variable {cfg : Config} {db : Db}

/-! ### The rows behind the annotations -/

theorem latestPublication_eq_none {i : ScopeId} :
    db.latestPublication i = none ↔ ∀ p pub, db.publications.find p = some pub → pub.scopeState ≠ i := by
  unfold Db.latestPublication Db.publicationsByVersion
  rw [List.head?_eq_none_iff, List.eq_nil_iff_forall_not_mem]
  constructor
  · intro h p pub hp hi
    refine h (p, pub) ?_
    rw [List.mem_insertionSort, Table.mem_filter]
    simp [hp, hi]
  · rintro h ⟨p, pub⟩ hmem
    rw [List.mem_insertionSort, Table.mem_filter] at hmem
    exact h p pub hmem.1 (by simpa using hmem.2)

theorem latestPublication_mem {i p : ℕ} {pub : Publication} (h : db.latestPublication i = some (p, pub)) :
    db.publications.find p = some pub ∧ pub.scopeState = i := by
  have hmem := mem_publicationsByVersion (List.mem_of_head? h)
  exact ⟨hmem.1, hmem.2.1⟩

/-- A scope has a job in an active state just when this is its one active job. -/
theorem Inv.any_job (h : Inv db.core) (i : ScopeId) (status : JobStatus) (ha : status.isActive = true) :
    (db.jobs.any fun job => job.scopeState = i ∧ job.status = status) = true ↔
      (db.activeJob i).map (·.2.status) = some status := by
  rw [Table.any_eq_true, Option.map_eq_some_iff]
  constructor
  · rintro ⟨j, a, hj, hp⟩
    simp only [decide_eq_true_eq] at hp
    cases hfirst : db.activeJob i with
    | none =>
      have hnone := Table.first_eq_none.mp hfirst j a hj
      simp [hp.1, hp.2, ha] at hnone
    | some e =>
      obtain ⟨hk, hb⟩ := Table.first_eq_some (i := e.1) (a := e.2) hfirst
      simp only [Bool.decide_and, Bool.decide_eq_true, Bool.and_eq_true, decide_eq_true_eq] at hb
      have hsame : e.1 = j := h.one_active hk hj (hb.1.trans hp.1.symm) hb.2 (by rw [hp.2]; exact ha)
      have hrow : db.jobs.find j = some e.2 := by rw [← hsame]; exact hk
      rw [hj] at hrow
      cases hrow
      exact ⟨e, rfl, hp.2⟩
  · rintro ⟨e, hfirst, hst⟩
    obtain ⟨hk, hb⟩ := Table.first_eq_some (i := e.1) (a := e.2) hfirst
    simp only [Bool.decide_and, Bool.decide_eq_true, Bool.and_eq_true, decide_eq_true_eq] at hb
    exact ⟨e.1, e.2, hk, by simp [hb.1, hst]⟩

/-- The attempt under construction belongs to the running job of its scope. -/
theorem Inv.latest_building (h : Inv db.core) {i : ScopeId} (hl : (db.latestPublication i).map (·.2.status) = some .building) :
    (db.activeJob i).map (·.2.status) = some .running := by
  obtain ⟨⟨p, pub⟩, hp, hst⟩ := Option.map_eq_some_iff.mp hl
  obtain ⟨hp, hi⟩ := latestPublication_mem hp
  obtain ⟨j, a, hj, hb, hr⟩ := h.building_running hp hst
  obtain ⟨pub', hp', hs⟩ := h.build_scope hj hb
  have hsame : pub' = pub := Option.some.inj (hp'.symm.trans hp)
  rw [← h.any_job i .running rfl, Table.any_eq_true]
  exact ⟨j, a, hj, by simp [hr, ← hs, hsame, hi]⟩

/-! ### Filters and states -/

/-- Rows for which a filter and the derived state differ. A scope that was never published
counts as dirty and so never shows as not published; two empty fingerprints are equal columns
but a dirty source. -/
def AnnotatedScope.Misfiltered (row : AnnotatedScope) (f : StateFilter) : Prop :=
  row.hasRunningJob = false ∧ row.hasPendingJob = false ∧
    match f with
    | .notPublished => row.currentPublished = none ∧ row.latestStatus = none
    | .current => row.currentSourceFingerprint = none ∧ row.publishedFingerprint = some none ∧
        row.latestStatus ≠ some .staged ∧ row.latestBuiltStatus ≠ some .readyForReview
    | .building | .scheduled | .failed => False

variable {i : ScopeId} {s : Scope}

theorem presentation_running {e : JobId × Job} (he : db.activeJob i = some e) (hst : e.2.status = .running) (now : Time) :
    db.presentation i s now = .building := by
  simp [Db.presentation, computeScopeState, scopeStateInputs, he, hst]

theorem presentation_pending {e : JobId × Job} (he : db.activeJob i = some e) (hst : e.2.status = .pending) (now : Time) :
    db.presentation i s now = .updateQueued ∨ db.presentation i s now = .queued := by
  simp only [Db.presentation, computeScopeState, scopeStateInputs, he, hst, Option.map_some, reduceCtorEq, if_false,
    if_true]
  split_ifs
  · exact .inl rfl
  · exact .inr rfl

theorem activeJob_status {e : JobId × Job} (he : db.activeJob i = some e) :
    e.2.status = .running ∨ e.2.status = .pending := by
  have hsel := (Table.first_eq_some (i := e.1) (a := e.2) he).2
  revert hsel
  cases e.2.status <;> simp [JobStatus.isActive]

/-- While a job is pending or running, only the job decides. -/
theorem selects_iff_busy (h : Inv db.core) {e : JobId × Job} (he : db.activeJob i = some e) (f : StateFilter)
    (now : Time) : (db.annotatedScope i s).selectedBy f = some true ↔ db.presentation i s now ∈ f.states := by
  have hrunning := h.any_job i .running rfl
  have hpending := h.any_job i .pending rfl
  have hbuilding := h.latest_building (i := i)
  rw [he] at hrunning hpending hbuilding
  simp only [Option.map_some, Option.some.injEq] at hrunning hpending hbuilding
  rcases activeJob_status he with hst | hst
  · have hrow : (db.annotatedScope i s).hasRunningJob = true := hrunning.mpr hst
    rw [presentation_running he hst]
    cases f <;> simp [AnnotatedScope.selectedBy, AnnotatedScope.noActiveJob, hrow, StateFilter.states]
  · have hrow : (db.annotatedScope i s).hasRunningJob = false := by
      rw [← Bool.not_eq_true]
      exact fun hr => absurd (hrunning.mp hr) (by rw [hst]; decide)
    have hrow' : (db.annotatedScope i s).hasPendingJob = true := hpending.mpr hst
    have hlatest : (db.annotatedScope i s).latestStatus ≠ some .building :=
      fun hb => absurd (hbuilding hb) (by rw [hst]; decide)
    rcases presentation_pending (s := s) he hst now with hstate | hstate <;> rw [hstate] <;>
      cases f <;> simp [AnnotatedScope.selectedBy, AnnotatedScope.noActiveJob, hrow, hrow', hlatest, StateFilter.states]

/-- What the columns of a scope owe to the links between its rows. -/
structure AnnotatedScope.Linked (row : AnnotatedScope) : Prop where
  published : row.currentPublished = none ↔ row.publishedFingerprint = none
  latest : row.latestStatus = none ↔ row.latestSourceFingerprint = none
  published_latest : row.latestStatus = none → row.publishedFingerprint = none

theorem Inv.annotated_linked (h : Inv db.core) (hs : db.scopes.find i = some s) : (db.annotatedScope i s).Linked where
  published := by
    simp only [Db.annotatedScope, Option.map_eq_none_iff, Db.currentPublication]
    cases hc : s.currentPublishedPublication with
    | none => simp
    | some p =>
      obtain ⟨pub, hp, -⟩ := h.current_published hs hc
      have hp : db.publications.find p = some pub := hp
      simp [hp]
  latest := by simp [Db.annotatedScope]
  published_latest := by
    simp only [Db.annotatedScope, Option.map_eq_none_iff, Db.currentPublication]
    intro hnone
    cases hc : s.currentPublishedPublication with
    | none => simp
    | some p =>
      obtain ⟨pub, hp, hi, -⟩ := h.current_published hs hc
      exact absurd hi (latestPublication_eq_none.mp hnone p pub hp)

/-- The source counts as dirty unless both fingerprints are there and equal. -/
def AnnotatedScope.isDirty (row : AnnotatedScope) : Bool :=
  row.currentSourceFingerprint = none ∨ some row.currentSourceFingerprint ≠ row.publishedFingerprint

theorem AnnotatedScope.isDirty_iff {row : AnnotatedScope} : row.isDirty = true ↔
    row.currentSourceFingerprint = none ∨ some row.currentSourceFingerprint ≠ row.publishedFingerprint := by
  simp [isDirty]

/-- The state of a scope without an active job, from its columns. -/
def AnnotatedScope.idleState (row : AnnotatedScope) : OperationalState :=
  if row.latestStatus = some .building then .building
  else if row.latestStatus = some .staged then .updateQueued
  else if (row.latestStatus = some .failed ∧ (row.latestSourceFingerprint = some none ∨
      row.latestSourceFingerprint = some row.currentSourceFingerprint)) ∧ row.isDirty then .failed
  else if row.latestBuiltStatus = some .readyForReview then .readyToPublish
  else if row.isDirty then .needsRebuild
  else if row.publishedFingerprint.isSome then .current
  else .notPublished

theorem presentation_idle (he : db.activeJob i = none) (now : Time) :
    db.presentation i s now = (db.annotatedScope i s).idleState := by
  have hjob : (scopeStateInputs db i s).job = none := by simp [scopeStateInputs, he]
  have hstatus : (scopeStateInputs db i s).latest.map (·.status) = (db.annotatedScope i s).latestStatus := by
    simp only [scopeStateInputs, Db.annotatedScope, Option.map_map]
    rfl
  have hfailed : (∃ p ∈ (scopeStateInputs db i s).latest, p.status = .failed ∧ (p.sourceFingerprint = none ∨
      p.sourceFingerprint = (scopeStateInputs db i s).currentFingerprint)) ↔
      (db.annotatedScope i s).latestStatus = some .failed ∧ ((db.annotatedScope i s).latestSourceFingerprint = some none ∨
        (db.annotatedScope i s).latestSourceFingerprint = some (db.annotatedScope i s).currentSourceFingerprint) := by
    simp only [scopeStateInputs, Db.annotatedScope]
    cases db.latestPublication i <;> simp
  have hdirty : (scopeStateInputs db i s).dirty = (db.annotatedScope i s).isDirty := by
    rw [Bool.eq_iff_iff, AnnotatedScope.isDirty_iff]
    simp only [scopeStateInputs, Db.annotatedScope]
    cases hc : db.currentPublication s with
    | none => simp
    | some pub => cases hf : s.currentSourceFingerprint <;> cases hp : pub.sourceFingerprint <;> simp [hp]
  have hbuilt : (scopeStateInputs db i s).latestBuilt.map (·.status) = (db.annotatedScope i s).latestBuiltStatus := rfl
  have hcurrent : (scopeStateInputs db i s).currentPublished.isSome = (db.annotatedScope i s).publishedFingerprint.isSome := by
    simp only [scopeStateInputs, Db.annotatedScope, Option.isSome_map]
  unfold Db.presentation computeScopeState AnnotatedScope.idleState
  rw [hjob]
  simp only [hstatus, hfailed, hdirty, hbuilt, hcurrent]

theorem Inv.idle_annotated (h : Inv db.core) (he : db.activeJob i = none) (s : Scope) :
    (db.annotatedScope i s).hasRunningJob = false ∧ (db.annotatedScope i s).hasPendingJob = false ∧
      (db.annotatedScope i s).latestStatus ≠ some .building := by
  have hnone : ∀ status : JobStatus, status.isActive = true →
      (db.jobs.any fun job => job.scopeState = i ∧ job.status = status) = false := by
    intro status ha
    rw [← Bool.not_eq_true, h.any_job i status ha, he]
    simp
  refine ⟨hnone .running rfl, hnone .pending rfl, fun hb => ?_⟩
  have hjob := h.latest_building hb
  rw [he] at hjob
  cases hjob

/-- Without an active job the attempts and the fingerprints decide. -/
theorem selects_iff_idle {row : AnnotatedScope} (h : row.Linked) (hrunning : row.hasRunningJob = false)
    (hpending : row.hasPendingJob = false) (hbuilding : row.latestStatus ≠ some .building) (f : StateFilter) :
    (row.selectedBy f = some true ↔ row.idleState ∈ f.states) ↔ ¬row.Misfiltered f := by
  obtain ⟨hpub, hlat, hpl⟩ := h
  cases f with
  | building =>
    have hstate : row.idleState ≠ .building := by
      unfold AnnotatedScope.idleState
      rw [if_neg hbuilding]
      split_ifs <;> simp
    simp [AnnotatedScope.selectedBy, AnnotatedScope.Misfiltered, StateFilter.states, hrunning, hbuilding, hstate]
  | scheduled =>
    have hstate : row.idleState = .updateQueued ↔ row.latestStatus = some .staged := by
      unfold AnnotatedScope.idleState
      split_ifs <;> simp_all
    have hqueued : row.idleState ≠ .queued := by
      unfold AnnotatedScope.idleState
      split_ifs <;> simp
    simp [AnnotatedScope.selectedBy, AnnotatedScope.Misfiltered, StateFilter.states, hrunning, hpending, hstate, hqueued]
  | failed =>
    have hstate : row.idleState = .failed ↔ (row.latestStatus = some .failed ∧ (row.latestSourceFingerprint = some none ∨
        row.latestSourceFingerprint = some row.currentSourceFingerprint)) ∧ row.isDirty = true := by
      unfold AnnotatedScope.idleState
      rw [if_neg hbuilding]
      split_ifs <;> simp_all
    have hdirty : row.dirty = some true ↔ row.isDirty = true := by
      cases hp : row.publishedFingerprint with
      | none => simp_all [AnnotatedScope.dirty, AnnotatedScope.isDirty]
      | some stored =>
        cases hf : row.currentSourceFingerprint <;> cases stored <;>
          simp_all [AnnotatedScope.dirty, AnnotatedScope.isDirty]
    simp [AnnotatedScope.selectedBy, AnnotatedScope.Misfiltered, AnnotatedScope.noActiveJob, StateFilter.states,
      hrunning, hpending, hstate, hdirty]
    tauto
  | current =>
    have hstate : row.idleState = .current ↔ row.latestStatus ≠ some .staged ∧
        row.latestBuiltStatus ≠ some .readyForReview ∧ row.isDirty = false ∧ row.publishedFingerprint.isSome := by
      unfold AnnotatedScope.idleState
      rw [if_neg hbuilding]
      split_ifs <;> simp_all
    have hselected : row.selectedBy .current = some true ↔ row.publishedFingerprint = some row.currentSourceFingerprint ∧
        row.latestStatus ≠ some .staged ∧ row.latestBuiltStatus ≠ some .readyForReview := by
      cases hp : row.publishedFingerprint with
      | none =>
        simp [AnnotatedScope.selectedBy, hp]
      | some stored =>
        have hc : ∃ p, row.currentPublished = some p := Option.ne_none_iff_exists'.mp fun hn => by
          rw [hpub, hp] at hn
          cases hn
        have hl : ∃ status, row.latestStatus = some status := Option.ne_none_iff_exists'.mp fun hn => by
          rw [hpl hn] at hp
          cases hp
        obtain ⟨p, hc⟩ := hc
        obtain ⟨status, hl⟩ := hl
        cases hb : row.latestBuiltStatus <;> simp_all [AnnotatedScope.selectedBy, AnnotatedScope.noActiveJob]
    have hclean : row.isDirty = false ↔ row.currentSourceFingerprint ≠ none ∧
        row.publishedFingerprint = some row.currentSourceFingerprint := by
      rw [← Bool.not_eq_true, AnnotatedScope.isDirty_iff, not_or, ne_eq, not_not, eq_comm (b := row.publishedFingerprint)]
    have hmis : row.Misfiltered .current ↔ row.currentSourceFingerprint = none ∧ row.publishedFingerprint = some none ∧
        row.latestStatus ≠ some .staged ∧ row.latestBuiltStatus ≠ some .readyForReview := by
      simp [AnnotatedScope.Misfiltered, hrunning, hpending]
    rw [hselected, hmis, show row.idleState ∈ StateFilter.current.states ↔ row.idleState = .current by
      simp [StateFilter.states], hstate, hclean]
    by_cases hf : row.currentSourceFingerprint = none
    · simp [hf]
    · by_cases hp : row.publishedFingerprint = some row.currentSourceFingerprint
      · simp [hf, hp]
      · simp [hf, hp]
  | notPublished =>
    have hstate : row.idleState ≠ .notPublished := by
      unfold AnnotatedScope.idleState
      rw [if_neg hbuilding]
      split_ifs <;> simp_all [AnnotatedScope.isDirty]
    simp [AnnotatedScope.selectedBy, AnnotatedScope.Misfiltered, AnnotatedScope.noActiveJob, StateFilter.states,
      hrunning, hpending, hstate]

theorem find_of_mem_listedScopes {department : DepartmentId} {mode : ScopeMode} {station : Option Station}
    {stationInvalid : Bool} (h : (i, s) ∈ db.listedScopes department mode station stationInvalid) :
    db.scopes.find i = some s := by
  have hmem : (i, s) ∈ db.scopes.filter fun s => s.key.target.department = some department := by
    unfold Db.listedScopes at h
    cases mode with
    | department => exact List.mem_of_mem_filter h
    | all => exact h
    | station =>
      dsimp only at h
      split at h
      · cases h
      · cases station <;> exact List.mem_of_mem_filter h
  exact (Table.mem_filter.mp hmem).1

/-- In every reachable state and for every filter, the list selects the scopes that show one
of the filter's states, but for the misfiltered rows. -/
theorem filteredScopeQueryset_iff (h : (system cfg).Reachable db) {department : DepartmentId} {mode : ScopeMode}
    {station : Option Station} {stationInvalid : Bool}
    (hs : (i, s) ∈ db.filteredScopeQueryset department none mode station stationInvalid) (f : StateFilter) (now : Time) :
    ((i, s) ∈ db.filteredScopeQueryset department (some f) mode station stationInvalid ↔
        db.presentation i s now ∈ f.states) ↔ ¬(db.annotatedScope i s).Misfiltered f := by
  have hinv := inv_of_reachable h
  have hrow : db.scopes.find i = some s := find_of_mem_listedScopes hs
  have hlist : (i, s) ∈ db.filteredScopeQueryset department (some f) mode station stationInvalid ↔
      (db.annotatedScope i s).selectedBy f = some true := by
    simp only [Db.filteredScopeQueryset] at hs ⊢
    rw [List.mem_filter, decide_eq_true_eq, and_iff_right hs]
  rw [hlist]
  cases he : db.activeJob i with
  | none =>
    obtain ⟨hrunning, hpending, hbuilding⟩ := hinv.idle_annotated he s
    rw [presentation_idle he]
    exact selects_iff_idle (hinv.annotated_linked hrow) hrunning hpending hbuilding f
  | some e =>
    refine iff_of_true (selects_iff_busy hinv he f now) ?_
    rintro ⟨hrunning, hpending, -⟩
    rcases activeJob_status he with hst | hst
    · have hany := (hinv.any_job i .running rfl).mpr (by rw [he, Option.map_some, hst])
      exact absurd hrunning (by rw [Bool.not_eq_false]; exact hany)
    · have hany := (hinv.any_job i .pending rfl).mpr (by rw [he, Option.map_some, hst])
      exact absurd hpending (by rw [Bool.not_eq_false]; exact hany)

/-- The phonebook of department 1, published and listed as current. -/
theorem publishedPhonebook_listed : ∃ s,
    (runCalls sampleConfig {} (phonebookBuild 0 1 0)).scopes.find 0 = some s ∧
      (0, s) ∈ (runCalls sampleConfig {} (phonebookBuild 0 1 0)).filteredScopeQueryset 1 none .all none false ∧
      (((0, s) ∈ (runCalls sampleConfig {} (phonebookBuild 0 1 0)).filteredScopeQueryset 1 (some .current) .all none false ↔
        (runCalls sampleConfig {} (phonebookBuild 0 1 0)).presentation 0 s 5 ∈ StateFilter.current.states) ↔
        ¬((runCalls sampleConfig {} (phonebookBuild 0 1 0)).annotatedScope 0 s).Misfiltered .current) := by
  have hreach : (system sampleConfig).Reachable (runCalls sampleConfig {} (phonebookBuild 0 1 0)) :=
    reachable_runCalls (.init Migrated.empty) _
  have hs : (runCalls sampleConfig {} (phonebookBuild 0 1 0)).scopes.find 0 =
      some ⟨⟨.department, phonebookTarget⟩, 1, some 1, none, some 0, some 0⟩ := by decide +kernel
  have hmem : (0, ⟨⟨.department, phonebookTarget⟩, 1, some 1, none, some 0, some 0⟩) ∈
      (runCalls sampleConfig {} (phonebookBuild 0 1 0)).filteredScopeQueryset 1 none .all none false := by decide +kernel
  exact ⟨_, hs, hmem, filteredScopeQueryset_iff hreach hmem .current 5⟩

/-- Two scopes of an earlier release: a phonebook published before fingerprints were kept, and
a file library that was never published. -/
def legacyScopes : Db where
  scopes := ⟨[⟨⟨.department, phonebookTarget⟩, 1, none, none, some 0, some 0⟩,
    ⟨⟨.department, ⟨some 1, none, .departmentFiles⟩⟩, 0, none, none, none, none⟩]⟩
  publications := ⟨[{
    scopeState := 0
    key := ⟨.department, phonebookTarget⟩
    versionNumber := 1
    schemaVersion := 1
    sourceRevision := 1
    status := .published
    artifactReady := true
    artifactStatus := .ready
    createdAt := 0 }]⟩

/-- The phonebook is listed as current and the library as not published, but both show that
they need a rebuild. -/
theorem legacyScopes_misfiltered : (system sampleConfig).Reachable legacyScopes ∧ ∃ s t,
    (0, s) ∈ legacyScopes.filteredScopeQueryset 1 (some .current) .all none false ∧
      legacyScopes.presentation 0 s 0 = .needsRebuild ∧
      (1, t) ∈ legacyScopes.filteredScopeQueryset 1 (some .notPublished) .all none false ∧
      legacyScopes.presentation 1 t 0 = .needsRebuild := by
  refine ⟨.init (show Migrated sampleConfig legacyScopes by decide +kernel),
    ⟨⟨.department, phonebookTarget⟩, 1, none, none, some 0, some 0⟩,
    ⟨⟨.department, ⟨some 1, none, .departmentFiles⟩⟩, 0, none, none, none, none⟩, ?_⟩
  decide +kernel

end FireDash.Publications
