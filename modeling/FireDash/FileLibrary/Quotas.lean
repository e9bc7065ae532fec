import FireDash.FileLibrary.Mutations

/-! What an upload does to the usage of its library, against the quota of its department. -/
namespace FireDash.FileLibrary

open Publications (Actor Content Digest LibraryOwner)

/-- The quota in force for an owner: the default one until its department has a policy. -/
def State.quota (s : State) (cfg : Config) (owner : LibraryOwner) : ℕ :=
  match s.quotas.find (departmentFor owner), owner with
  | some policy, .department _ => policy.departmentFilesBytes
  | some policy, .station _ => policy.stationFilesBytes
  | none, .department _ => cfg.departmentQuotaBytes
  | none, .station _ => cfg.stationQuotaBytes

/-- The size of the document an upload replaces. -/
def Upload.replacedBytes (upload : Upload) (s : State) : ℤ :=
  ((upload.replaceId.bind s.entries.find).map s.sizeBytes).getD 0

def SameQuotas (s t : State) : Prop := t.quotas = s.quotas

instance preorderSameQuotas : IsPreorder State SameQuotas where
  refl _ := rfl
  trans _ _ _ h h' := h'.trans h

instance accessKeepingSameQuotas : AccessKeeping SameQuotas where
  accesses _ _ := rfl

section

variable {cfg : Config} {env : Env} {actor : Actor} {s t : State} {e : Entry} {library : Library} {α : Type}

/-! ### Quotas -/

theorem quotas_lockScope : Tx.Frames SameQuotas (lockScope library) s := by
  unfold lockScope
  rw [Tx.frames_get_bind]
  split
  · exact Tx.frames_pure ()
  · rfl

theorem quotas_publicationCall (x : Publications.Env → Publications.Service α) :
    Tx.Frames SameQuotas (publicationCall env x) s := by
  unfold Tx.Frames Tx.wp publicationCall
  cases x (env.at s) s.publications with
  | mk r p => cases r <;> rfl

theorem quotas_lockedLibrary (libraryId : ℕ) (permission : Permission) :
    Tx.Frames SameQuotas (lockedLibrary env actor libraryId permission) s := by
  unfold lockedLibrary
  refine (frames_getLibrary libraryId).bind fun preview _ _ => ?_
  refine (frames_requireLibraryAccess permission).bind fun _ _ _ => ?_
  refine quotas_lockScope.bind fun _ _ _ => ?_
  refine (frames_getLibrary libraryId).bind fun library _ _ => ?_
  exact (frames_requireLibraryAccess permission).bind fun _ _ _ => Tx.frames_pure _

theorem quotas_changed : Tx.Frames SameQuotas (changed cfg env actor library) s := by
  unfold changed saveLibrary
  refine Tx.Frames.bind ?_ fun _ _ _ => ?_
  · exact (Tx.frames_ensure _ _).bind fun _ _ _ => rfl
  · exact (quotas_publicationCall _).bind fun _ _ _ => frames_endDepartmentMutation _

theorem quota_congr (h : t.quotas = s.quotas) (owner : LibraryOwner) : t.quota cfg owner = s.quota cfg owner := by
  unfold State.quota
  rw [h]

/-- The quota read is the one in force, before and after the policy is created. -/
theorem wp_quotaBytes : Tx.wp (quotaBytes cfg library)
    (fun quota t => quota = s.quota cfg library.owner ∧ ∀ owner, t.quota cfg owner = s.quota cfg owner)
    (fun _ _ => True) s := by
  unfold quotaBytes quotaPolicy
  obtain ⟨id, owner, name, sourceRevision, usageBytes⟩ := library
  rw [Tx.wp_bind, Tx.wp_bind, Tx.wp_get]
  cases hfind : s.quotas.find (departmentFor owner) with
  | some policy =>
    cases owner <;> simp only [Tx.wp_pure] <;> simp [State.quota, hfind]
  | none =>
    simp only [Tx.wp_bind, Tx.wp_require, Tx.wp_modify, Tx.wp_pure]
    refine ⟨fun rows hrows => ?_, fun _ => trivial⟩
    obtain ⟨hn, rfl⟩ := Rows.insert?_eq_some hrows
    have hkeep : ∀ o, ({ s with quotas := s.quotas.insert _ hn } : State).quota cfg o = s.quota cfg o := by
      intro o
      unfold State.quota
      dsimp only
      rw [Rows.find_insert]
      by_cases hd : departmentFor owner = departmentFor o
      · rw [if_pos hd, ← hd, hfind]
        cases o <;> rfl
      · rw [if_neg hd]
    cases owner with
    | department department => exact ⟨by simp [State.quota, hfind], hkeep⟩
    | station station => exact ⟨by simp [State.quota, hfind], hkeep⟩

/-! ### Uploads -/

/-- The row of the library after an upload of so many bytes. -/
def Library.charged (library : Library) (usage : ℤ) : Library :=
  { library with usageBytes := usage, sourceRevision := library.sourceRevision + 1 }

/-- An accepted upload: the document it leaves has its bytes, which the library is charged for. -/
structure Charged (cfg : Config) (libraryId : ℕ) (upload : Upload) (s : State) (entry : Entry) (t : State) : Prop where
  found : ∃ library content, s.libraries.find libraryId = some library ∧ t.contentOf entry = some content ∧
    t.libraries = s.libraries.save
      (library.charged (library.usageBytes + content.sizeBytes - upload.replacedBytes s)) ∧
    upload.prepared = .ok (content.sizeBytes, content.sha256) ∧
    (library.usageBytes + content.sizeBytes - upload.replacedBytes s ≤ s.quota cfg library.owner ∨
      library.usageBytes + content.sizeBytes - upload.replacedBytes s ≤ library.usageBytes)
  quota : ∀ owner, t.quota cfg owner = s.quota cfg owner

/-- The written document is in the entries, with the content as its own. -/
theorem wp_writeUpload {entry parent : Option Entry} {name : String} {upload : Upload} {content : Content} :
    Tx.wp (writeUpload cfg actor library entry parent name upload content)
      (fun found t => t.libraries = s.libraries ∧ t.quotas = s.quotas ∧ found.content = some content.id ∧
        t.contents.find content.id = some content) (fun _ _ => True) s := by
  have hcontent : Tx.wp (createContent content) (fun _ t => t.libraries = s.libraries ∧ t.quotas = s.quotas ∧
      t.contents.find content.id = some content) (fun _ _ => True) s := by
    unfold createContent
    simp only [Tx.wp_bind, Tx.wp_get, Tx.wp_ensure, Tx.wp_require, Tx.wp_modify, implies_true, and_true]
    intro _ _ rows hrows
    obtain ⟨hn, rfl⟩ := Rows.insert?_eq_some hrows
    exact ⟨trivial, trivial, by rw [Rows.find_insert, if_pos rfl]⟩
  unfold writeUpload
  rw [Tx.wp_bind]
  refine Tx.wp_mono hcontent (fun _ t ht => ?_) fun _ _ _ => trivial
  obtain ⟨hl, hq, hc⟩ := ht
  cases entry with
  | some e =>
    simp only [saveEntry, Tx.wp_bind, Tx.wp_get, Tx.wp_ensure, Tx.wp_modify, Tx.wp_pure]
    exact ⟨fun _ => ⟨hl, hq, trivial, hc⟩, fun _ => trivial⟩
  | none =>
    simp only [createEntry, Tx.wp_bind, Tx.wp_get, Tx.wp_ensure, Tx.wp_require, Tx.wp_modify, Tx.wp_pure]
    exact ⟨fun _ => ⟨fun _ _ => ⟨hl, hq, trivial, hc⟩, fun _ => trivial⟩, fun _ => trivial⟩

theorem wp_acceptUpload {libraryId size : ℕ} {name : String} {upload : Upload} {digest : Digest}
    (hprepared : upload.prepared = .ok (size, digest)) :
    Tx.wp (acceptUpload cfg env actor libraryId name upload size digest) (Charged cfg libraryId upload s)
      (fun _ t => t = s) s := by
  unfold acceptUpload
  rw [Tx.wp_atomic, Tx.wp_bind]
  refine Tx.wp_mono (Tx.wp_and (wp_lockedLibrary libraryId _) (quotas_lockedLibrary libraryId _)) ?_ fun _ _ _ => rfl
  rintro ⟨library, access⟩ s₁ ⟨⟨hsame, hl⟩, hq₁⟩
  have hid : library.id = libraryId := Rows.key_of_find hl
  simp only [Tx.wp_bind, Tx.wp_ofExcept, Tx.wp_get, Tx.wp_ensure, implies_true, and_true]
  intro entry hentry _ parent _ _ _
  refine Tx.wp_mono (Tx.wp_and (frames_quotaBytes (F := SameRows)) wp_quotaBytes) ?_ fun _ _ _ => trivial
  rintro quota s₂ ⟨hsame₂, hquota, hkeep⟩
  have hreplaced : (entry.map s₁.sizeBytes).getD 0 = upload.replacedBytes s := by
    obtain ⟨-, hcontents, hentries⟩ := hsame
    have hsize : s₁.sizeBytes = s.sizeBytes := by
      funext e
      simp only [State.sizeBytes, State.contentOf, hcontents]
    unfold Upload.replacedBytes
    cases hid : upload.replaceId with
    | none =>
      rw [hid] at hentry
      cases hentry
      rfl
    | some id =>
      simp only [hid] at hentry
      cases hscoped : s₁.scopedEntry library.id id with
      | error e =>
        rw [hscoped] at hentry
        cases hentry
      | ok found =>
        rw [hscoped] at hentry
        cases hentry
        have hfind := (State.scopedEntry_eq_ok hscoped).1
        rw [hentries] at hfind
        rw [Option.bind_some, hfind, hsize]
  have hsum : library.usageBytes - upload.replacedBytes s + (size : ℤ) =
      library.usageBytes + size - upload.replacedBytes s := by omega
  rw [hreplaced, hsum]
  intro hwithin _ _
  refine Tx.wp_mono wp_writeUpload ?_ fun _ _ _ => trivial
  rintro found s₃ ⟨hl₃, hq₃, hfound, hcontent⟩
  refine Tx.wp_mono (Tx.wp_and wp_changed quotas_changed) ?_ fun _ _ _ => trivial
  rintro _ t ⟨⟨hlt, hct, -⟩, hqt⟩
  have hdocument : t.contentOf found = t.contents.find upload.contentId := by
    rw [State.contentOf, hfound, Option.bind_some]
  refine ⟨⟨library, { id := upload.contentId, library := library.id, storageKey := upload.storageKey library.id
                      sizeBytes := size, sha256 := digest }, hl, ?_, ?_, hprepared, ?_⟩, fun owner => ?_⟩
  · rw [hdocument, hct]
    exact hcontent
  · rw [hlt, hl₃, hsame₂.1, hsame.1]
    rfl
  · rw [← quota_congr hq₁, ← hquota]
    exact hwithin
  · rw [quota_congr (hqt.trans hq₃), hkeep, quota_congr hq₁]

/-- An upload charges its library for the new document less the one it replaces; it ends within the
quota, or above it without an increase; and a rejected one leaves libraries, entries and contents. -/
theorem upload_within_quota (libraryId : ℕ) (upload : Upload) :
    Tx.wp (uploadPdf cfg env actor libraryId upload)
      (fun entry t => ∃ library after content, s.libraries.find libraryId = some library ∧
        t.libraries.find libraryId = some after ∧ t.contentOf entry = some content ∧
        upload.prepared = .ok (content.sizeBytes, content.sha256) ∧
        after.usageBytes = library.usageBytes + content.sizeBytes - upload.replacedBytes s ∧
        (∀ id, id ≠ libraryId → t.libraries.find id = s.libraries.find id) ∧
        t.quota cfg library.owner = s.quota cfg library.owner ∧
        (after.usageBytes ≤ t.quota cfg library.owner ∨
          (t.quota cfg library.owner : ℤ) < library.usageBytes ∧ after.usageBytes ≤ library.usageBytes))
      (fun _ t => t.libraries = s.libraries ∧ t.entries = s.entries ∧ t.contents = s.contents) s := by
  have hraise : ∀ t, SameRows s t → t.libraries = s.libraries ∧ t.entries = s.entries ∧ t.contents = s.contents :=
    fun t ht => ⟨ht.1, ht.2.2, ht.2.1⟩
  unfold uploadPdf
  rw [Tx.wp_bind]
  refine Tx.wp_mono (Tx.wp_and (frames_activeTemporaryAccess (F := SameRows))
    (frames_activeTemporaryAccess (F := SameQuotas))) ?_ fun _ t ht => hraise t ht.1
  rintro _ s₁ ⟨h₁, hq₁⟩
  rw [Tx.wp_bind]
  refine Tx.wp_mono (Tx.wp_and (frames_getLibrary (F := SameRows) libraryId)
    (frames_getLibrary (F := SameQuotas) libraryId)) ?_ fun _ t ht => hraise t (trans_of SameRows h₁ ht.1)
  rintro _ s₂ ⟨h₂, hq₂⟩
  have hsame := trans_of SameRows h₁ h₂
  have hquotas := trans_of SameQuotas hq₁ hq₂
  simp only [Tx.wp_bind, Tx.wp_ofExcept, Tx.wp_ensure]
  have hrejected := hraise s₂ hsame
  refine ⟨fun _ _ => ⟨fun name _ => ⟨fun _ => ⟨fun _ => ⟨fun prepared hprepared => ?_, fun _ _ => hrejected⟩,
    fun _ => hrejected⟩, fun _ => hrejected⟩, fun _ _ => hrejected⟩, fun _ _ => hrejected⟩
  obtain ⟨size, digest⟩ := prepared
  refine ⟨fun _ => ?_, fun _ => hrejected⟩
  refine Tx.wp_mono (wp_acceptUpload hprepared) (fun entry t ht => ?_) fun _ t ht => ht ▸ hrejected
  obtain ⟨⟨library, content, hl, hcontent, hlt, hsize, hwithin⟩, hkeep⟩ := ht
  have hreplaced : upload.replacedBytes s₂ = upload.replacedBytes s := by
    simp only [Upload.replacedBytes, hsame.2.2]
    congr 2
    funext e
    simp only [State.sizeBytes, State.contentOf, hsame.2.1]
  have hid : library.id = libraryId := Rows.key_of_find hl
  rw [hreplaced] at hlt hwithin
  rw [hsame.1] at hl hlt
  have hafter : t.libraries.find libraryId =
      some (library.charged (library.usageBytes + content.sizeBytes - upload.replacedBytes s)) := by
    rw [hlt, Rows.find_save, if_pos (show (library.charged _).id = libraryId from hid), hl]
    rfl
  refine ⟨library, _, content, hl, hafter, hcontent, hsize, rfl, fun id hne => ?_, ?_, ?_⟩
  · rw [hlt, Rows.find_save, if_neg]
    exact fun h => hne (h.symm.trans hid)
  · rw [hkeep, quota_congr hquotas]
  · rw [hkeep]
    dsimp only [Library.charged]
    omega

end

end FireDash.FileLibrary
