import FireDash.Delivery.System

/-! Key grants of document generations over whole runs: which of them stay ready, and the calls
that give up a generation without withdrawing its grants. -/
namespace FireDash.Delivery

open Publications Tx

/-! ### Calls that give up a version -/

/-- The deletion of a version goes through: it is superseded, or current with a safe predecessor. -/
def Deletable (env : Env) (db : Db) (actor : Actor) (p : PublicationId) : Prop :=
  ∃ pub, db.publications.find p = some pub ∧ requirePublicationScope env actor pub.key.target = .ok () ∧
    validateScope pub.key.target = .ok () ∧ ∃ i s, scopeFilter pub.key.target = .ok s.key ∧
    db.scopes.find i = some s ∧ pub.scopeState = i ∧
    (pub.status = .superseded ∨ pub.status = .published ∧ s.currentPublishedPublication = some p ∧
      db.newerLiveAttemptExists i pub.versionNumber = false ∧
      ∃ e, db.eligiblePredecessor env.canonical i s pub.versionNumber = .ok (some e))

/-- The publication a call gives up, in the state it starts from. -/
def retires (cfg : Config) (env : Env) (db : Db) : Call → PublicationId → Prop
  | .deletePublication actor id, p => p = id ∧ Deletable env db actor id
  | .processCandidate id now dryRun, p =>
    p = id ∧ dryRun = false ∧ db.retentionOutcome cfg env.canonical id now = .ok .obsoleted
  | _, _ => False

variable {cfg : Config} {env : Env} {db : Db} {crypto : DeliveryCrypto} {settings : Settings} {s t : State}

/-- A deletion that returns was possible. -/
theorem deletePublication_deletable {actor : Actor} {p : PublicationId} :
    wp (deletePublication env actor p) (fun _ _ => Deletable env db actor p) (fun _ db' => db' = db) db := by
  have hconst : ∀ {α : Type} (x : Publications.Service α) {P : Prop} {db' : Db}, P →
      wp x (fun _ _ => P) (fun _ _ => True) db' := fun x _ _ hP =>
    wp_of_forall (fun _ _ _ => hP) fun _ _ _ => trivial
  simp only [deletePublication, managedPublication, wp_atomic, wp_bind, wp_get, wp_require, wp_ofExcept, wp_pure, implies_true,
    and_true]
  intro pub hp _ hmanage _ hvalid
  refine wp_lockedScope (fun i s hs hf => ?_) fun _ => trivial
  simp only [wp_ensure, wp_ite, wp_bind]
  refine ⟨fun hi => ⟨fun hst => ?_, fun _ => ⟨fun hst => ?_, fun _ => trivial⟩⟩, fun _ => trivial⟩
  · simp only [activatePredecessor, wp_bind, wp_ensure, wp_get, wp_ofExcept, wp_require]
    refine ⟨fun hc => ⟨fun hlive => ⟨fun found hfound => ⟨fun e he => ?_, fun _ => trivial⟩,
      fun _ _ => trivial⟩, fun _ => trivial⟩, fun _ => trivial⟩
    have hdel : Deletable env db actor p :=
      ⟨pub, hp, hmanage, hvalid, i, s, hf, hs, hi, .inr ⟨hst, hc, hlive, e, he ▸ hfound⟩⟩
    exact wp_mono (hconst _ trivial) (fun _ _ _ => hconst _ hdel) fun _ _ h => h
  · exact hconst _ ⟨pub, hp, hmanage, hvalid, i, s, hf, hs, hi, .inl hst⟩

/-- A version that a call does not give up stays successful. -/
theorem successful_call (call : Call) (h : Publications.Inv db.core) {p : PublicationId} {pub : Publication}
    (hp : db.publications.find p = some pub) (hst : pub.status.isSuccessful = true)
    (hr : ¬retires cfg env db call p) :
    ∃ q, (exec (call.run cfg env) db).publications.find p = some q ∧ q.status.isSuccessful = true := by
  by_cases hl : (call.licence env db).retire p
  · cases call with
    | deletePublication actor id =>
      obtain rfl : p = id := hl
      refine exec_of_wp (P := fun db' : Db => ∃ q, db'.publications.find p = some q ∧ q.status.isSuccessful = true)
        (wp_mono deletePublication_deletable (fun _ _ hd => absurd ⟨rfl, hd⟩ hr) fun _ db' he => ?_)
      exact ⟨pub, he ▸ hp, hst⟩
    | processCandidate id now dryRun =>
      obtain rfl : p = id := hl
      refine exec_of_wp (P := fun db' : Db => ∃ q, db'.publications.find p = some q ∧ q.status.isSuccessful = true)
        (wp_bind.mpr (wp_mono (wp_processCandidate_outcome p now dryRun) (fun outcome db' ho => ?_) fun _ db' he => ?_))
      · obtain ⟨ho, rfl⟩ := ho
        cases dryRun with
        | true => exact ⟨pub, hp, hst⟩
        | false =>
          rcases Db.retentionOutcome_cases ho with rfl | ⟨pub', s, hp', -, -, ⟨rfl, -⟩ | ⟨rfl, hterm, -⟩⟩
          · refine ⟨pub, ?_, hst⟩
            rw [if_neg (by decide), Db.retain_skipped]
            exact hp
          · exact absurd ⟨rfl, rfl, ho⟩ hr
          · rw [hp] at hp'
            cases hp'
            rcases hterm with he | he <;> rw [he] at hst <;> cases hst
      · exact ⟨pub, he.2 ▸ hp, hst⟩
    | _ => exact hl.elim
  · exact (call.steps h).successful h hp hst hl

/-! ### Ready generation grants -/

/-- The generation is current, or a superseded library still retained. -/
def Delivered (s : State) (id : PublicationId) : Prop :=
  ∃ p, s.db.publications.find id = some p ∧
    (p.status = .published ∨ p.status = .superseded ∧ p.key.target.datasetTypeCode.isFileDataset = true)

/-- Every ready generation grant is for a delivered generation. -/
def GrantsDelivered (s : State) : Prop :=
  ∀ {i g}, s.db.generationKeyGrants.find i = some g → g.status = .ready → Delivered s g.publication

/-- The call gives up a library generation that has a ready key grant. -/
def Strands (settings : Settings) (s : State) : Action → Prop
  | .publication env call => ∃ p pub, s.db.publications.find p = some pub ∧
      pub.key.target.datasetTypeCode.isFileDataset = true ∧
      (∃ i g, s.db.generationKeyGrants.find i = some g ∧ g.publication = p ∧ g.status = .ready) ∧
      retires settings.publications env s.db call p
  | _ => False

theorem Delivered.congr {id : PublicationId} (h : Delivered s id) (hp : t.db.publications = s.db.publications) :
    Delivered t id := by
  unfold Delivered
  rw [hp]
  exact h

/-- A generation grant is ready after a step because it was, or because the worker just ended
it for a delivered generation. -/
theorem Served.readyGenerationGrant (hs : Served crypto settings s t) {i : ℕ} {g : KeyGrant}
    (hg : t.db.generationKeyGrants.find i = some g) (hst : g.status = .ready) :
    s.db.generationKeyGrants.find i = some g ∨ Delivered t g.publication := by
  cases hs with
  | upkeep hu => exact .inl (ready_of_reset hu.generationKeyGrants hg hst)
  | claimGrant => exact .inl hg
  | endGrant => exact .inl hg
  | claimManifest => exact .inl hg
  | @endManifest id now m u outcome hm hrunning hu hsigns =>
    obtain ⟨v, hv, hr⟩ := hu
    have hgrants : u.db.generationKeyGrants = v.db.generationKeyGrants := by rw [hr.rest]
    exact .inl (ready_of_reset hv.upkeep.generationKeyGrants (hgrants ▸ hg) hst)
  | @endGenerationGrant id clock g₀ outcome hg₀ hopen hready =>
    by_cases hid : i = id
    · subst hid
      simp only [State.modifyGenerationKeyGrant, Table.find_modify, if_true, hg₀, Option.map_some,
        Option.some.injEq] at hg
      cases outcome with
      | ready encapsulatedKey wrappedKey =>
        obtain ⟨context, hc⟩ := hready _ _ rfl
        obtain ⟨-, -, vehicleId, vehicle, p, sc, -, hauth⟩ := authorizedGeneration_eq_ok.mp hc
        rw [← hg]
        exact .inr ⟨p, hauth.publication, hauth.status⟩
      | revoked message =>
        rw [← hg] at hst
        cases hst
      | failed message =>
        rw [← hg] at hst
        cases hst
    · have hsame : s.db.generationKeyGrants.find i = some g := by
        simpa [State.modifyGenerationKeyGrant, Ne.symm hid] using hg
      exact .inl hsame

/-- Publications other than library generations that leave lose their grants; a library one
that is not given up stays delivered. -/
theorem Delivered.publication {call : Call} (hi : Publications.Inv s.db.core)
    {p : PublicationId} (h : Delivered s p) {i : ℕ} {g : KeyGrant}
    (hg : s.db.generationKeyGrants.find i = some g) (hid : g.publication = p) (hst : g.status = .ready)
    (hg' : (exec (call.run settings.publications env) s.db).generationKeyGrants.find i = some g)
    (hstrand : ¬Strands settings s (.publication env call)) :
    Delivered { s with db := exec (call.run settings.publications env) s.db } p := by
  obtain ⟨pub, hp, hpub⟩ := h
  have he : Effect s.db (exec (call.run settings.publications env) s.db) := call.effect hi
  obtain ⟨q, hq, hev⟩ := he.rows hp
  by_cases hfile : pub.key.target.datasetTypeCode.isFileDataset = true
  · have hsuccess : pub.status.isSuccessful = true := by
      rcases hpub with hpub | ⟨hpub, -⟩ <;> rw [hpub] <;> rfl
    have hkept : ¬retires settings.publications env s.db call p := fun hr =>
      hstrand ⟨p, pub, hp, hfile, ⟨i, g, hg, hid, hst⟩, hr⟩
    obtain ⟨q', hq', hsucc⟩ := successful_call call hi hp hsuccess hkept
    rw [hq] at hq'
    cases hq'
    refine ⟨q, hq, ?_⟩
    rw [hev.key]
    revert hsucc
    cases q.status <;> simp [PublicationStatus.isSuccessful, hfile]
  · rcases hpub with hpub | ⟨-, hf⟩
    · refine ⟨q, hq, .inl ?_⟩
      by_contra hleft
      have hrevoked := (he.withdrawn hp hq (.inl ⟨hpub, hleft⟩)).2 (by simpa using hfile) i g hg' hid
      rw [hst] at hrevoked
      cases hrevoked
    · exact absurd hf hfile

theorem Served.delivered (hs : Served crypto settings s t) {id : PublicationId} (h : Delivered s id) : Delivered t id := by
  cases hs with
  | upkeep hu => exact h.congr hu.publications
  | claimGrant => exact h
  | endGrant => exact h
  | claimManifest => exact h
  | @endManifest _ now m u outcome hm hrunning hu hsigns =>
    obtain ⟨v, hv, hr⟩ := hu
    obtain ⟨p, hp, hpub⟩ := h
    rw [← hv.upkeep.publications] at hp
    obtain ⟨q, hq, -, hkey, hst⟩ := hr.new hp
    exact ⟨q, hq, by rw [hkey, hst]; exact hpub⟩
  | endGenerationGrant => exact h

/-- In runs that never give up a library generation with a ready grant, every ready generation
grant is for a delivered generation; and in any state the worker makes no other grant ready. -/
theorem generation_grants_delivered :
    (∀ (hash : ManifestState → String) (t : State),
      (delivery crypto hash).ReachableBy (fun s a => ¬Strands a.1 s a.2) t → GrantsDelivered t) ∧
    ∀ (s : State) (worker : DeliveryWorker) (locked : List ℕ) (now clock : Time) (i : ℕ) (g : KeyGrant),
      (exec (processNextGenerationKeyGrant settings.publications crypto worker locked now clock) s).db.generationKeyGrants.find
        i = some g → g.status = .ready → s.db.generationKeyGrants.find i = some g ∨ Delivered s g.publication := by
  constructor
  · intro hash t h
    refine h.invariant (I := GrantsDelivered) (fun s hd i g hg => ?_) ?_
    · rw [Deployed.generationKeyGrants hd] at hg
      cases hg
    · rintro s ⟨settings, a⟩ t hreach hI hcareful ⟨-, rfl⟩ i g hg hst
      have hi := delivery_inv hreach
      have hserved : (∃ env call, a = .publication env call) ∨ Served crypto settings s (exec (a.run crypto settings) s) :=
        a.served
      rcases hserved with ⟨env, call, rfl⟩ | hs
      · have he : Effect s.db (exec (call.run settings.publications env) s.db) := call.effect hi
        have hold := ready_of_revoked he.generationKeyGrants hg hst
        exact (hI hold hst).publication hi hold rfl hst hg hcareful
      · rcases hs.readyGenerationGrant hg hst with hold | hnew
        · exact hs.delivered (hI hold hst)
        · exact hnew
  · intro s worker locked now clock i g hg hst
    have hserved : ∀ t : State, t = s ∨ Served crypto settings s t → t.db.generationKeyGrants.find i = some g →
        s.db.generationKeyGrants.find i = some g ∨ Delivered t g.publication := by
      rintro t (rfl | hs) hg
      · exact .inl hg
      · exact hs.readyGenerationGrant hg hst
    refine exec_of_wp (P := fun t : State => t.db.generationKeyGrants.find i = some g →
        s.db.generationKeyGrants.find i = some g ∨ Delivered s g.publication)
      (wp_mono processNextGenerationKeyGrant_spec (fun r t ht => ?_) fun _ t ht hg => ?_) hg
    · rcases ht with ⟨-, ht⟩ | ⟨id, g₀, outcome, -, hg₀, hopen, rfl, hready⟩
      · exact fun hg => .inl (ht ▸ hg)
      · exact hserved _ (.inr (.endGenerationGrant hg₀ hopen hready))
    · rw [ht] at hg
      exact .inl hg

/-! ### A library generation that is deleted -/

/-- The library of department 1. -/
def filesTarget : Target := ⟨some 1, none, .departmentFiles⟩

def filesEnv (now : Time) (library : Library) : Env := { now := now, canonical := { libraries := [library] } }

def emptyLibrary : Library := { id := 4, owner := .department 1 }

def folderLibrary : Library :=
  { id := 4, owner := .department 1, sourceRevision := 1, entries := [⟨0, "Plans", none, none⟩] }

/-- Edit the library and publish it as job and publication `k`. -/
def publishFiles (now : Time) (library : Library) (k : ℕ) : List Action :=
  [.publication (filesEnv now library) (.markDirty filesTarget none),
    .publication (filesEnv now library) (.claimJob k),
    .publication (filesEnv now library) (.sealDocuments sampleCrypto.toCrypto sampleWorker.toWorkerEnv k),
    .publication (filesEnv now library) (.finalizePublicationJob k
      [(.documentCount, countValue 0), (.totalAcceptedBytes, countValue 0), (.sourceRevision, countValue (k + 1))]
      none none)]

/-- A tablet asks for the key of the current generation and the worker grants it. -/
def servedGeneration : List Action :=
  publishFiles 0 emptyLibrary 0 ++
    [.requestGenerationKeyGrant 0 0 1, .processNextGenerationKeyGrant sampleWorker [] 1 1]

theorem servedGeneration_delivered :
    (sampleRun servedGeneration).db.generationKeyGrants.rows.map (fun g => (g.publication, g.status)) = [(0, .ready)] ∧
      GrantsDelivered (sampleRun servedGeneration) := by
  have hcareful : ∀ a ∈ servedGeneration, ∀ s, ¬Strands sampleSettings s a := by
    intro a ha s
    have hcall : ∀ env call, a = .publication env call → (∀ actor id, call ≠ .deletePublication actor id) ∧
        ∀ id now dryRun, call ≠ .processCandidate id now dryRun := by
      rintro env call rfl
      simp only [servedGeneration, publishFiles, List.mem_append, List.mem_cons, Action.publication.injEq,
        List.not_mem_nil, or_false, reduceCtorEq] at ha
      rcases ha with ⟨-, rfl⟩ | ⟨-, rfl⟩ | ⟨-, rfl⟩ | ⟨-, rfl⟩ <;> simp
    cases a with
    | publication env call =>
      rintro ⟨p, pub, -, -, -, hr⟩
      obtain ⟨hdel, hret⟩ := hcall env call rfl
      cases call with
      | deletePublication actor id => exact hdel actor id rfl
      | processCandidate id now dryRun => exact hret id now dryRun rfl
      | _ => exact hr
    | _ => exact fun h => h
  exact ⟨by decide +kernel, (@generation_grants_delivered sampleCrypto sampleSettings).1 sampleSettings.stateHash
    (sampleRun servedGeneration) (reachableBy_sampleRun servedGeneration hcareful)⟩

/-- The generation is superseded, then deleted: its key grant stays ready. -/
theorem deletedGeneration_stranded :
    (delivery sampleCrypto sampleSettings.stateHash).Reachable
        (sampleRun (servedGeneration ++ publishFiles 2 folderLibrary 1 ++
          [.publication (filesEnv 3 folderLibrary) (.deletePublication 7 0)])) ∧
      (sampleRun (servedGeneration ++ publishFiles 2 folderLibrary 1 ++
          [.publication (filesEnv 3 folderLibrary) (.deletePublication 7 0)])).db.generationKeyGrants.rows.map
        (fun g => (g.publication, g.status)) = [(0, .ready)] ∧
      (sampleRun (servedGeneration ++ publishFiles 2 folderLibrary 1 ++
          [.publication (filesEnv 3 folderLibrary) (.deletePublication 7 0)])).db.publications.rows.map
        (fun p => p.status) = [.obsolete, .published] :=
  ⟨reachable_sampleRun _, by decide +kernel, by decide +kernel⟩

end FireDash.Delivery
