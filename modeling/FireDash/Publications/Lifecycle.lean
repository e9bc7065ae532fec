import FireDash.Publications.Retention

/-! The abstract lifecycle: what a transaction may do to the linked scope, publication
and job rows, and the invariant that every such move keeps. -/
namespace FireDash.Publications

/-- The rows whose links the lifecycle maintains. -/
structure Core where
  scopes : Table Scope
  publications : Table Publication
  jobs : Table Job

def Db.core (db : Db) : Core := ⟨db.scopes, db.publications, db.jobs⟩

/-- The pointers, build links and states of a scope's rows fit together. -/
structure Inv (c : Core) : Prop where
  scope_key : ∀ {i j s t}, c.scopes.find i = some s → c.scopes.find j = some t → s.key = t.key → i = j
  scope_filter : ∀ {i s key}, c.scopes.find i = some s → scopeFilter s.key.target = .ok key → s.key = key
  publication_scope : ∀ {i p}, c.publications.find i = some p →
    ∃ s, c.scopes.find p.scopeState = some s ∧ s.key = p.key
  job_scope : ∀ {i j}, c.jobs.find i = some j → ∃ s, c.scopes.find j.scopeState = some s ∧ s.key = j.key
  current_published : ∀ {i s p}, c.scopes.find i = some s → s.currentPublishedPublication = some p →
    ∃ pub, c.publications.find p = some pub ∧ pub.scopeState = i ∧ pub.status = .published
  published_current : ∀ {p pub}, c.publications.find p = some pub → pub.status = .published →
    ∃ s, c.scopes.find pub.scopeState = some s ∧ s.currentPublishedPublication = some p
  one_active : ∀ {i j a b}, c.jobs.find i = some a → c.jobs.find j = some b → a.scopeState = b.scopeState →
    a.status.isActive = true → b.status.isActive = true → i = j
  build_scope : ∀ {i j p}, c.jobs.find i = some j → j.buildPublication = some p →
    ∃ pub, c.publications.find p = some pub ∧ pub.scopeState = j.scopeState
  build_injective : ∀ {i j a b p}, c.jobs.find i = some a → c.jobs.find j = some b →
    a.buildPublication = some p → b.buildPublication = some p → i = j
  running_building : ∀ {i j}, c.jobs.find i = some j → j.status = .running →
    ∃ p pub, j.buildPublication = some p ∧ c.publications.find p = some pub ∧ pub.status = .building
  building_running : ∀ {p pub}, c.publications.find p = some pub → pub.status = .building →
    ∃ i j, c.jobs.find i = some j ∧ j.buildPublication = some p ∧ j.status = .running

/-- States of an attempt whose build is over and which is not the current one. -/
@[grind] def PublicationStatus.isHistorical : PublicationStatus → Bool
  | .staged | .building | .published => false
  | _ => true

/-- A build is over: the attempt is neither staged nor building. -/
@[grind] def PublicationStatus.isFinished : PublicationStatus → Bool
  | .staged | .building => false
  | _ => true

/-- What may ever happen to a publication row; a finished attempt only loses its
snapshot, and only as it is made obsolete or purged. -/
structure Row (purge : Prop) (p q : Publication) : Prop where
  scopeState : q.scopeState = p.scopeState
  key : q.key = p.key
  versionNumber : q.versionNumber = p.versionNumber
  sourceRevision : p.status ≠ .staged → q.sourceRevision = p.sourceRevision
  left_staged : p.status ≠ .staged → q.status ≠ .staged
  finished : p.status.isFinished = true → q.status.isFinished = true
  obsolete : p.status = .obsolete → q.status = .obsolete
  fingerprint : p.status.isFinished = true → q.sourceFingerprint = p.sourceFingerprint
  artifact : p.status.isFinished = true → q.artifact = p.artifact
  snapshot : p.status.isFinished = true → q.sourceSnapshot = p.sourceSnapshot ∨
    q.sourceSnapshot = none ∧ (p.status ≠ .obsolete ∧ q.status = .obsolete ∨ purge)

variable {purge : Prop}

theorem Row.refl (p : Publication) : Row purge p p :=
  ⟨rfl, rfl, rfl, fun _ => rfl, id, id, id, fun _ => rfl, fun _ => rfl, fun _ => .inl rfl⟩

theorem Row.trans {p q r : Publication} (h : Row purge p q) (h' : Row purge q r) : Row purge p r where
  scopeState := h'.scopeState.trans h.scopeState
  key := h'.key.trans h.key
  versionNumber := h'.versionNumber.trans h.versionNumber
  sourceRevision hp := (h'.sourceRevision (h.left_staged hp)).trans (h.sourceRevision hp)
  left_staged hp := h'.left_staged (h.left_staged hp)
  finished hp := h'.finished (h.finished hp)
  obsolete hp := h'.obsolete (h.obsolete hp)
  fingerprint hp := (h'.fingerprint (h.finished hp)).trans (h.fingerprint hp)
  artifact hp := (h'.artifact (h.finished hp)).trans (h.artifact hp)
  snapshot hp := by
    rcases h'.snapshot (h.finished hp) with hsame | hcleared
    · rcases h.snapshot hp with hold | ⟨hnone, hwhy⟩
      · exact .inl (hsame.trans hold)
      · exact .inr ⟨hsame.trans hnone, hwhy.imp (fun ⟨hp, hq⟩ => ⟨hp, h'.obsolete hq⟩) id⟩
    · exact .inr ⟨hcleared.1, hcleared.2.imp (fun ⟨hq, hr⟩ => ⟨fun he => hq (h.obsolete he), hr⟩) id⟩

/-- What one call is entitled to do beyond the ordinary moves. -/
structure Licence where
  /-- Allocate a new version. -/
  mint : Prop := False
  /-- Start to build a staged attempt. -/
  claim : Prop := False
  /-- End a running build without publishing it. -/
  close : Prop := False
  /-- End a running build as failed. -/
  fail : Prop := False
  /-- Let a job wait again after that many attempts. -/
  retry : ℕ → Prop := fun _ => False
  /-- End a running build as the current publication. -/
  publish : Prop := False
  /-- Clear the snapshot of a failed or cancelled attempt. -/
  purge : Prop := False
  /-- Give up a superseded version. -/
  retire : PublicationId → Prop := fun _ => False
  /-- Make an existing finished version current. -/
  activate : Core → PublicationId → Prop := fun _ _ => False

/-- Supersede the publication a scope points at. -/
@[grind] def Core.superseded (c : Core) (current : Option PublicationId) : Table Publication :=
  match current with
  | none => c.publications
  | some p => c.publications.modify p fun row => { row with status := .superseded }

/-- The row behind a scope pointer. -/
def Core.currentPublication (c : Core) (scope : Scope) : Option Publication :=
  scope.currentPublishedPublication.bind c.publications.find

/-- The fingerprint column under which a source is recorded for the current publication. -/
def aliasFor (cfg : Config) (current : Option Publication) (fingerprint : Digest) : Fingerprint :=
  match current with
  | some current =>
    if some fingerprint = publicationSourceFingerprint cfg current then
      current.sourceFingerprint.or (some fingerprint)
    else some fingerprint
  | none => some fingerprint

section Guards

variable (cfg : Config) (purge : Prop) (c : Core)

/-- A pending job starts to build its staged attempt. -/
structure Claims (j : JobId) (a : Job) (p : PublicationId) (pub : Publication)
    (f : Publication → Publication) (g : Job → Job) : Prop where
  job : c.jobs.find j = some a
  pending : a.status = .pending
  publication : c.publications.find p = some pub
  staged : pub.status = .staged
  scope : pub.scopeState = a.scopeState
  link : a.buildPublication = some p ∨ ∀ {k b}, c.jobs.find k = some b → b.buildPublication ≠ some p
  row : Row purge pub (f pub)
  building : (f pub).status = .building
  revision : ∃ s, c.scopes.find a.scopeState = some s ∧ (f pub).sourceRevision = s.sourceRevision
  frozen : ∃ snapshot, (f pub).sourceSnapshot = some snapshot ∧
    (f pub).sourceFingerprint = some (sourceFingerprintForPayload cfg snapshot)
  job_key : (g a).key = a.key
  job_scope : (g a).scopeState = a.scopeState
  running : (g a).status = .running
  attempt : (g a).attemptCount = a.attemptCount + 1
  linked : (g a).buildPublication = some p

/-- A running build ends without a publication; its job is closed or waits unlinked. -/
structure EndsBuild (j : JobId) (a : Job) (p : PublicationId) (pub : Publication)
    (f : Publication → Publication) (g : Job → Job) : Prop where
  job : c.jobs.find j = some a
  running : a.status = .running
  link : a.buildPublication = some p
  publication : c.publications.find p = some pub
  building : pub.status = .building
  row : Row purge pub (f pub)
  historical : (f pub).status.isHistorical = true
  job_key : (g a).key = a.key
  job_scope : (g a).scopeState = a.scopeState
  closed : (g a).status.isActive = false ∧ (g a).buildPublication = a.buildPublication ∨
    (g a).status = .pending ∧ (g a).buildPublication = none ∧ (g a).attemptCount = a.attemptCount

/-- A running build ends as the current publication of its scope. -/
structure Publishes (i : ScopeId) (s : Scope) (j : JobId) (a : Job) (p : PublicationId) (pub : Publication)
    (f : Publication → Publication) (g : Job → Job) (h : Scope → Scope) : Prop where
  scope : c.scopes.find i = some s
  job : c.jobs.find j = some a
  running : a.status = .running
  link : a.buildPublication = some p
  publication : c.publications.find p = some pub
  building : pub.status = .building
  publication_scope : pub.scopeState = i
  row : Row purge pub (f pub)
  published : (f pub).status = .published
  logical : publicationSourceFingerprint cfg (f pub) = (f pub).sourceFingerprint
  job_key : (g a).key = a.key
  job_scope : (g a).scopeState = a.scopeState
  closed : (g a).status.isActive = false
  linked : (g a).buildPublication = a.buildPublication
  scope_key : (h s).key = s.key
  current : (h s).currentPublishedPublication = some p

/-- An existing finished version becomes the current one of its scope. -/
structure Activates (i : ScopeId) (s : Scope) (p : PublicationId) (pub : Publication)
    (f : Publication → Publication) (h : Scope → Scope) : Prop where
  scope : c.scopes.find i = some s
  publication : c.publications.find p = some pub
  historical : pub.status.isHistorical = true
  retained : pub.status ≠ .obsolete
  publication_scope : pub.scopeState = i
  row : Row purge pub (f pub)
  published : (f pub).status = .published
  snapshot : (f pub).sourceSnapshot = pub.sourceSnapshot
  scope_key : (h s).key = s.key
  current : (h s).currentPublishedPublication = some p
  fingerprint : (h s).currentSourceFingerprint = s.currentSourceFingerprint

end Guards

/-- One elementary change of the linked rows, with the facts its transaction checked. -/
inductive Move (cfg : Config) (l : Licence) (c : Core) : Core → Prop
  | scope {i s} {f : Scope → Scope} (hs : c.scopes.find i = some s) (hk : (f s).key = s.key)
      (hc : (f s).currentPublishedPublication = s.currentPublishedPublication)
      (hf : (f s).currentSourceFingerprint = s.currentSourceFingerprint ∨
        ∃ d, (f s).currentSourceFingerprint = aliasFor cfg (c.currentPublication s) d) :
      Move cfg l c { c with scopes := c.scopes.modify i f }
  | newScope {key : ScopeKey} (hk : scopeFilter key.target = .ok key) (hn : ∀ {i s}, c.scopes.find i = some s → s.key ≠ key) :
      Move cfg l c { c with scopes := c.scopes.insert { key := key } }
  | newJob {i s} {j : Job} (hs : c.scopes.find i = some s) (hi : j.scopeState = i) (hk : j.key = s.key)
      (hj : j.status = .pending) (hb : j.buildPublication = none) (ha : j.attemptCount = 0)
      (hn : ∀ {k b}, c.jobs.find k = some b → b.scopeState = i → b.status.isActive = false) :
      Move cfg l c { c with jobs := c.jobs.insert j }
  | newPublication {i s} {p : Publication} (hl : l.mint) (hs : c.scopes.find i = some s)
      (hi : p.scopeState = i) (hk : p.key = s.key) (hp : p.status = .staged)
      (hv : ∀ {k q}, c.publications.find k = some q → q.scopeState = i → q.versionNumber < p.versionNumber) :
      Move cfg l c { c with publications := c.publications.insert p }
  | job {j a} {f : Job → Job} (hj : c.jobs.find j = some a) (hk : (f a).key = a.key)
      (hs : (f a).scopeState = a.scopeState) (hst : (f a).status = a.status)
      (ha : (f a).attemptCount = a.attemptCount)
      (hb : (f a).buildPublication = a.buildPublication ∨
        ∃ p pub, a.status = .pending ∧ (f a).buildPublication = some p ∧ c.publications.find p = some pub ∧
          pub.scopeState = a.scopeState ∧ ∀ {k b}, c.jobs.find k = some b → b.buildPublication ≠ some p) :
      Move cfg l c { c with jobs := c.jobs.modify j f }
  | closeJob {j a} {f : Job → Job} (hj : c.jobs.find j = some a) (ha : a.status = .pending)
      (hk : (f a).key = a.key) (hs : (f a).scopeState = a.scopeState)
      (hst : (f a).status.isActive = false) (hb : (f a).buildPublication = a.buildPublication) :
      Move cfg l c { c with jobs := c.jobs.modify j f }
  | staged {p pub} {f : Publication → Publication} (hp : c.publications.find p = some pub)
      (hst : pub.status = .staged) (hr : Row l.purge pub (f pub))
      (hn : (f pub).status = .staged ∨ (f pub).status = .cancelled) :
      Move cfg l c { c with publications := c.publications.modify p f }
  | claim {j a p pub f g} (hl : l.claim) (h : Claims cfg l.purge c j a p pub f g) :
      Move cfg l c { c with publications := c.publications.modify p f, jobs := c.jobs.modify j g }
  | endBuild {j a p pub f g} (hl : l.close) (hf : (f pub).status = .failed → l.fail)
      (hr : (g a).status = .pending → l.retry a.attemptCount) (h : EndsBuild l.purge c j a p pub f g) :
      Move cfg l c { c with publications := c.publications.modify p f, jobs := c.jobs.modify j g }
  | publish {i s j a p pub f g h} (hl : l.publish) (hp : Publishes cfg l.purge c i s j a p pub f g h) :
      Move cfg l c
        ⟨c.scopes.modify i h, (c.superseded s.currentPublishedPublication).modify p f, c.jobs.modify j g⟩
  | activate {i s p pub f h} (hl : l.activate c p) (ha : Activates l.purge c i s p pub f h) :
      Move cfg l c { c with
        scopes := c.scopes.modify i h, publications := (c.superseded s.currentPublishedPublication).modify p f }
  | retire {p pub} {f : Publication → Publication} (hl : pub.status = .superseded → l.retire p)
      (hp : c.publications.find p = some pub) (hst : pub.status.isHistorical = true) (hr : Row l.purge pub (f pub))
      (hf : (f pub).status.isHistorical = true) :
      Move cfg l c { c with publications := c.publications.modify p f }

/-- A transaction is a sequence of moves. -/
def Steps (cfg : Config) (l : Licence) : Core → Core → Prop := Relation.ReflTransGen (Move cfg l)

section Invariant

variable {cfg : Config} {purge : Prop} {l : Licence} {c d : Core}

theorem Steps.refl : Steps cfg l c c := Relation.ReflTransGen.refl

theorem Steps.single (m : Move cfg l c d) : Steps cfg l c d := Relation.ReflTransGen.single m

theorem Steps.trans {e : Core} (h : Steps cfg l c d) (h' : Steps cfg l d e) : Steps cfg l c e :=
  Relation.ReflTransGen.trans h h'

/-- A publication that is not published is no scope's current one. -/
theorem Inv.current_ne (h : Inv c) {i s p pub} (hs : c.scopes.find i = some s)
    (hp : c.publications.find p = some pub) (hst : pub.status ≠ .published) :
    s.currentPublishedPublication ≠ some p := by
  intro hc
  obtain ⟨q, hq, -, hst'⟩ := h.current_published hs hc
  rw [hp] at hq
  cases hq
  exact hst hst'

/-- Lookup after the pointer of a scope moved from one publication to another. -/
theorem Core.find_superseded_modify {current : Option PublicationId} {p : PublicationId}
    (hne : current ≠ some p) (f : Publication → Publication) (q : PublicationId) :
    ((c.superseded current).modify p f).find q =
      if p = q then (c.publications.find q).map f
      else if current = some q then
        (c.publications.find q).map fun row => { row with status := .superseded }
      else c.publications.find q := by
  cases current with
  | none => simp [Core.superseded]
  | some r =>
    have hr : r ≠ p := fun h => hne (by rw [h])
    simp only [Core.superseded, Table.find_modify, Option.some.injEq]
    by_cases hq : p = q
    · subst hq
      simp [hr]
    · simp [hq]

/-- The running build of another attempt is not the job that a move works on. -/
private theorem Inv.other_running (h : Inv c) (p : PublicationId) {j a q pub} (hj : c.jobs.find j = some a)
    (hb : a.status = .pending ∨ a.buildPublication = some p) (hq : c.publications.find q = some pub)
    (hst : pub.status = .building) (hne : q ≠ p) :
    ∃ i b, i ≠ j ∧ c.jobs.find i = some b ∧ b.buildPublication = some q ∧ b.status = .running := by
  obtain ⟨i, b, hi, hbq, hr⟩ := h.building_running hq hst
  refine ⟨i, b, ?_, hi, hbq, hr⟩
  rintro rfl
  grind

theorem Claims.inv {j a p pub f g} (m : Claims cfg purge c j a p pub f g) (h : Inv c) :
    Inv { c with publications := c.publications.modify p f, jobs := c.jobs.modify j g } := by
  have hother := fun {q r} (hq : c.publications.find q = some r) =>
    h.other_running p m.job (.inl m.pending) hq
  have hscope := m.row.scopeState
  have hkey := m.row.key
  obtain ⟨m1, m2, m3, m4, m5, m6, m7, m8, -, -, m9, m10, m11, -, m12⟩ := m
  obtain ⟨h1, h2, h3, h4, h5, h6, h7, h8, h9, h10, h11⟩ := h
  constructor
  case building_running =>
    intro q r hq hr
    by_cases hqp : q = p
    · exact ⟨j, g a, by simp [m1], by rw [m12, hqp], m11⟩
    · obtain ⟨k, b, hkj, hb, hbq, hbr⟩ := hother (by simpa [Ne.symm hqp] using hq) hr hqp
      exact ⟨k, b, by simpa [Ne.symm hkj] using hb, hbq, hbr⟩
  all_goals grind

theorem EndsBuild.inv {j a p pub f g} (m : EndsBuild purge c j a p pub f g) (h : Inv c) :
    Inv { c with publications := c.publications.modify p f, jobs := c.jobs.modify j g } := by
  have hother := fun {q r} (hq : c.publications.find q = some r) =>
    h.other_running p m.job (.inr m.link) hq
  have hscope := m.row.scopeState
  have hkey := m.row.key
  obtain ⟨m1, m2, m3, m4, m5, m6, m7, m8, m9, m10⟩ := m
  obtain ⟨h1, h2, h3, h4, h5, h6, h7, h8, h9, h10, h11⟩ := h
  constructor
  case building_running =>
    intro q r hq hr
    have hqp : q ≠ p := by grind
    obtain ⟨k, b, hkj, hb, hbq, hbr⟩ := hother (by simpa [Ne.symm hqp] using hq) hr hqp
    exact ⟨k, b, by simpa [Ne.symm hkj] using hb, hbq, hbr⟩
  all_goals grind

theorem Publishes.inv {i s j a p pub f g h} (m : Publishes cfg purge c i s j a p pub f g h) (hi : Inv c) :
    Inv ⟨c.scopes.modify i h, (c.superseded s.currentPublishedPublication).modify p f, c.jobs.modify j g⟩ := by
  have hne := hi.current_ne m.scope m.publication (by rw [m.building]; decide)
  have hfind := Core.find_superseded_modify (c := c) hne
  have hother := fun {q r} (hq : c.publications.find q = some r) =>
    hi.other_running p m.job (.inr m.link) hq
  have hscope := m.row.scopeState
  have hkey := m.row.key
  obtain ⟨m1, m2, m3, m4, m5, m6, m7, m8, m9, m10, m11, m12, m13, m14, m15, m16⟩ := m
  obtain ⟨h1, h2, h3, h4, h5, h6, h7, h8, h9, h10, h11⟩ := hi
  constructor
  case building_running =>
    intro q r hq hr
    have hqp : q ≠ p := by grind
    have hold : c.publications.find q = some r := by grind
    obtain ⟨k, b, hkj, hb, hbq, hbr⟩ := hother hold hr hqp
    exact ⟨k, b, by simpa [Ne.symm hkj] using hb, hbq, hbr⟩
  all_goals grind

theorem Activates.inv {i s p pub f h} (m : Activates purge c i s p pub f h) (hi : Inv c) :
    Inv { c with
      scopes := c.scopes.modify i h, publications := (c.superseded s.currentPublishedPublication).modify p f } := by
  have hne := hi.current_ne m.scope m.publication (fun he => by have := m.historical; rw [he] at this; cases this)
  have hfind := Core.find_superseded_modify (c := c) hne
  have hscope := m.row.scopeState
  have hkey := m.row.key
  obtain ⟨m1, m2, m3, -, m4, m5, m6, m7, m8, m9, m10⟩ := m
  obtain ⟨h1, h2, h3, h4, h5, h6, h7, h8, h9, h10, h11⟩ := hi
  constructor <;> grind

/-- A job write that keeps running jobs and their links keeps every build running. -/
private theorem Inv.building_running_modify (h : Inv c) {j a} {f : Job → Job} (hj : c.jobs.find j = some a)
    (hf : a.status = .running → (f a).status = .running ∧ (f a).buildPublication = a.buildPublication)
    {p pub} (hp : c.publications.find p = some pub) (hst : pub.status = .building) :
    ∃ k b, (c.jobs.modify j f).find k = some b ∧ b.buildPublication = some p ∧ b.status = .running := by
  obtain ⟨k, b, hk, hb, hr⟩ := h.building_running hp hst
  by_cases hkj : j = k
  · subst hkj
    rw [hj] at hk
    cases hk
    exact ⟨j, f a, by simp [hj], by rw [(hf hr).2, hb], (hf hr).1⟩
  · exact ⟨k, b, by simpa [hkj] using hk, hb, hr⟩

private theorem Inv.insertJob (h : Inv c) {i s} {j : Job} (hs : c.scopes.find i = some s)
    (hi : j.scopeState = i) (hk : j.key = s.key) (hj : j.status = .pending) (hb : j.buildPublication = none)
    (hn : ∀ {k b}, c.jobs.find k = some b → b.scopeState = i → b.status.isActive = false) :
    Inv { c with jobs := c.jobs.insert j } := by
  obtain ⟨h1, h2, h3, h4, h5, h6, h7, h8, h9, h10, h11⟩ := h
  constructor
  case building_running =>
    intro p pub hp hst
    obtain ⟨k, b, hk, hb, hr⟩ := h11 hp hst
    exact ⟨k, b, by grind, hb, hr⟩
  all_goals grind

private theorem Inv.insertPublication (h : Inv c) {i s} {p : Publication} (hs : c.scopes.find i = some s)
    (hi : p.scopeState = i) (hk : p.key = s.key) (hp : p.status = .staged) :
    Inv { c with publications := c.publications.insert p } := by
  obtain ⟨h1, h2, h3, h4, h5, h6, h7, h8, h9, h10, h11⟩ := h
  constructor
  case building_running =>
    intro q r hq hr
    have hold : c.publications.find q = some r := by grind
    exact h11 hold hr
  all_goals grind

/-- A scope may be created where none has its key. -/
theorem Inv.insertScope (h : Inv c) {s : Scope} (hk : scopeFilter s.key.target = .ok s.key)
    (hn : ∀ {i t}, c.scopes.find i = some t → t.key ≠ s.key) (hc : s.currentPublishedPublication = none) :
    Inv { c with scopes := c.scopes.insert s } := by
  obtain ⟨h1, h2, h3, h4, h5, h6, h7, h8, h9, h10, h11⟩ := h
  constructor <;> grind

private theorem Inv.modifyJob (h : Inv c) {j a} {f : Job → Job} (hj : c.jobs.find j = some a) (hk : (f a).key = a.key)
    (hs : (f a).scopeState = a.scopeState) (hst : (f a).status = a.status)
    (hb : (f a).buildPublication = a.buildPublication ∨
      ∃ p pub, a.status = .pending ∧ (f a).buildPublication = some p ∧ c.publications.find p = some pub ∧
        pub.scopeState = a.scopeState ∧ ∀ {k b}, c.jobs.find k = some b → b.buildPublication ≠ some p) :
    Inv { c with jobs := c.jobs.modify j f } := by
  have hbr := fun {p pub} (hp : c.publications.find p = some pub) =>
    h.building_running_modify (f := f) hj (by grind) hp
  obtain ⟨h1, h2, h3, h4, h5, h6, h7, h8, h9, h10, h11⟩ := h
  constructor <;> grind

private theorem Inv.closeJob (h : Inv c) {j a} {f : Job → Job} (hj : c.jobs.find j = some a) (ha : a.status = .pending)
    (hk : (f a).key = a.key) (hs : (f a).scopeState = a.scopeState) (hst : (f a).status.isActive = false)
    (hb : (f a).buildPublication = a.buildPublication) : Inv { c with jobs := c.jobs.modify j f } := by
  have hbr := fun {p pub} (hp : c.publications.find p = some pub) =>
    h.building_running_modify (f := f) hj (by grind) hp
  obtain ⟨h1, h2, h3, h4, h5, h6, h7, h8, h9, h10, h11⟩ := h
  constructor <;> grind

private theorem Inv.modifyStaged (h : Inv c) {p pub} {f : Publication → Publication} (hp : c.publications.find p = some pub)
    (hst : pub.status = .staged) (hr : Row purge pub (f pub)) (hn : (f pub).status = .staged ∨ (f pub).status = .cancelled) :
    Inv { c with publications := c.publications.modify p f } := by
  have hscope := hr.scopeState
  have hkey := hr.key
  obtain ⟨h1, h2, h3, h4, h5, h6, h7, h8, h9, h10, h11⟩ := h
  constructor <;> grind

private theorem Inv.modifyHistorical (h : Inv c) {p pub} {f : Publication → Publication}
    (hp : c.publications.find p = some pub) (hst : pub.status.isHistorical = true) (hr : Row purge pub (f pub))
    (hf : (f pub).status.isHistorical = true) : Inv { c with publications := c.publications.modify p f } := by
  have hscope := hr.scopeState
  have hkey := hr.key
  obtain ⟨h1, h2, h3, h4, h5, h6, h7, h8, h9, h10, h11⟩ := h
  constructor <;> grind

private theorem Inv.modifyScope (h : Inv c) {i s} {f : Scope → Scope} (hs : c.scopes.find i = some s)
    (hk : (f s).key = s.key) (hc : (f s).currentPublishedPublication = s.currentPublishedPublication) :
    Inv { c with scopes := c.scopes.modify i f } := by
  obtain ⟨h1, h2, h3, h4, h5, h6, h7, h8, h9, h10, h11⟩ := h
  constructor <;> grind

/-- Every move keeps the invariant. -/
theorem Move.inv (m : Move cfg l c d) (h : Inv c) : Inv d := by
  cases m with
  | claim hl m => exact m.inv h
  | endBuild hl hf hr m => exact m.inv h
  | publish hl m => exact m.inv h
  | activate hl m => exact m.inv h
  | newJob hs hi hk hj hb ha hn => exact h.insertJob hs hi hk hj hb hn
  | job hj hk hs hst ha hb => exact h.modifyJob hj hk hs hst hb
  | closeJob hj ha hk hs hst hb => exact h.closeJob hj ha hk hs hst hb
  | staged hp hst hr hn => exact h.modifyStaged hp hst hr hn
  | retire hl hp hst hr hf => exact h.modifyHistorical hp hst hr hf
  | scope hs hk hc hf => exact h.modifyScope hs hk hc
  | newScope hk hn => exact h.insertScope hk hn rfl
  | newPublication hl hs hi hk hp hv => exact h.insertPublication hs hi hk hp

theorem Steps.inv (m : Steps cfg l c d) (h : Inv c) : Inv d := by
  induction m with
  | refl => exact h
  | tail _ m ih => exact m.inv ih

/-- A rewrite of one job within its scope leaves every job in its scope. -/
private theorem find_modify_job {t : Table Job} {j k : JobId} {a b : Job} {f : Job → Job} (hj : t.find j = some a)
    (hk : (f a).key = a.key) (hs : (f a).scopeState = a.scopeState) (hb : t.find k = some b) :
    ∃ b', (t.modify j f).find k = some b' ∧ b'.key = b.key ∧ b'.scopeState = b.scopeState := by
  by_cases hjk : j = k
  · subst hjk
    obtain rfl := Option.some.inj (hj.symm.trans hb)
    exact ⟨f a, by simp [hj], hk, hs⟩
  · exact ⟨b, by simp [hjk, hb], rfl, rfl⟩

/-- Jobs are never dropped and never change their scope. -/
theorem Move.keepsJob (m : Move cfg l c d) {j : JobId} {a : Job} (hj : c.jobs.find j = some a) :
    ∃ a', d.jobs.find j = some a' ∧ a'.key = a.key ∧ a'.scopeState = a.scopeState := by
  cases m with
  | newJob hs hi hk hst hb ha hn =>
    have hne : j ≠ c.jobs.nextId := (Table.lt_nextId_of_find hj).ne
    exact ⟨a, by simp [hne, hj], rfl, rfl⟩
  | job hk hkey hs hst ha hb => exact find_modify_job hk hkey hs hj
  | closeJob hk ha hkey hs hst hb => exact find_modify_job hk hkey hs hj
  | claim hl m => exact find_modify_job m.job m.job_key m.job_scope hj
  | endBuild hl hf hr m => exact find_modify_job m.job m.job_key m.job_scope hj
  | publish hl m => exact find_modify_job m.job m.job_key m.job_scope hj
  | scope | newScope | newPublication | staged | activate | retire => exact ⟨a, hj, rfl, rfl⟩

theorem Steps.keepsJob (m : Steps cfg l c d) {j : JobId} {a : Job} (hj : c.jobs.find j = some a) :
    ∃ a', d.jobs.find j = some a' ∧ a'.key = a.key ∧ a'.scopeState = a.scopeState := by
  induction m with
  | refl => exact ⟨a, hj, rfl, rfl⟩
  | tail _ m ih =>
    obtain ⟨b, hb, hbk, hbs⟩ := ih
    obtain ⟨b', hb', hk, hs⟩ := m.keepsJob hb
    exact ⟨b', hb', hk.trans hbk, hs.trans hbs⟩

/-- A version that is or was the current one of its scope, and was not given up. -/
def PublicationStatus.isSuccessful : PublicationStatus → Bool
  | .published | .superseded => true
  | _ => false

/-- A switch of the current version leaves the other successful ones successful. -/
theorem Core.switch_successful {current : Option PublicationId} {p q : PublicationId} {pub r : Publication}
    {f : Publication → Publication} (hne : current ≠ some q) (hr : c.publications.find q = some r)
    (hf : (f r).status = .published) (hp : c.publications.find p = some pub) (hst : pub.status.isSuccessful = true) :
    ∃ pub', ((c.superseded current).modify q f).find p = some pub' ∧ pub'.status.isSuccessful = true := by
  rw [Core.find_superseded_modify hne, hp]
  by_cases hq : q = p
  · subst hq
    rw [hp] at hr
    cases hr
    rw [if_pos rfl]
    exact ⟨f pub, rfl, by rw [hf]; rfl⟩
  · rw [if_neg hq]
    split
    · exact ⟨_, rfl, rfl⟩
    · exact ⟨pub, rfl, hst⟩

/-- A row that stays successful, or another row, is rewritten. -/
theorem successful_modify {t : Table Publication} {p q : PublicationId} {pub : Publication}
    {f : Publication → Publication} (hp : t.find p = some pub) (hst : pub.status.isSuccessful = true)
    (hf : q = p → (f pub).status.isSuccessful = true) :
    ∃ pub', (t.modify q f).find p = some pub' ∧ pub'.status.isSuccessful = true := by
  rw [Table.find_modify, hp]
  by_cases hq : q = p
  · rw [if_pos hq]
    exact ⟨f pub, rfl, hf hq⟩
  · rw [if_neg hq]
    exact ⟨pub, rfl, hst⟩

/-- A successful version stays successful unless the call may give it up. -/
theorem Move.successful (m : Move cfg l c d) (h : Inv c) {p : PublicationId} {pub : Publication}
    (hp : c.publications.find p = some pub) (hst : pub.status.isSuccessful = true) (hl : ¬l.retire p) :
    ∃ q, d.publications.find p = some q ∧ q.status.isSuccessful = true := by
  -- A rewritten row in another state is another row.
  have hother : ∀ {q r} {f : Publication → Publication}, c.publications.find q = some r →
      r.status.isSuccessful = false → q = p → (f pub).status.isSuccessful = true := by
    rintro q r f hr hno rfl
    rw [hp] at hr
    cases hr
    rw [hst] at hno
    cases hno
  cases m with
  | scope | newScope | newJob | job | closeJob => exact ⟨pub, hp, hst⟩
  | newPublication hl' hs hi hk hp' hv =>
    have hne : p ≠ c.publications.nextId := (Table.lt_nextId_of_find hp).ne
    exact ⟨pub, by simp [hne, hp], hst⟩
  | staged hp' hst' hr hn => exact successful_modify hp hst (hother hp' (by rw [hst']; rfl))
  | claim hl' m => exact successful_modify hp hst (hother m.publication (by rw [m.staged]; rfl))
  | endBuild hl' hf hr m => exact successful_modify hp hst (hother m.publication (by rw [m.building]; rfl))
  | publish hl' m =>
    exact Core.switch_successful (h.current_ne m.scope m.publication (by rw [m.building]; decide)) m.publication
      m.published hp hst
  | activate hl' m =>
    refine Core.switch_successful (h.current_ne m.scope m.publication fun he => ?_) m.publication m.published hp hst
    have hhist := m.historical
    rw [he] at hhist
    cases hhist
  | @retire q r f hl' hp' hst' hr hf =>
    refine successful_modify hp hst ?_
    rintro rfl
    rw [hp] at hp'
    cases hp'
    revert hl' hst hst'
    cases pub.status <;> simp [PublicationStatus.isSuccessful, PublicationStatus.isHistorical, hl]

theorem Steps.successful (m : Steps cfg l c d) (h : Inv c) {p : PublicationId} {pub : Publication}
    (hp : c.publications.find p = some pub) (hst : pub.status.isSuccessful = true) (hl : ¬l.retire p) :
    ∃ q, d.publications.find p = some q ∧ q.status.isSuccessful = true := by
  induction m with
  | refl => exact ⟨pub, hp, hst⟩
  | tail hsteps m ih =>
    obtain ⟨q, hq, hstq⟩ := ih
    exact m.successful (Steps.inv hsteps h) hq hstq hl

end Invariant

end FireDash.Publications
