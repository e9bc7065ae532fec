import FireDash.FileLibrary.Consistency

/-! Every mutation of a library keeps its rows consistent, whichever way it ends. -/
namespace FireDash.FileLibrary

open Publications (Actor Content Digest)

variable {cfg : Config} {env : Env} {actor : Actor} {s t : State} {e e' : Entry} {library row : Library} {α : Type}

/-- The wrapper of the mutations: its own writes are to temporary accesses, and a raise of the
function undoes what the function wrote. -/
theorem Consistent.libraryMutation {libraryId : ℕ} {permission : Permission} {function : Service α}
    (hf : ∀ t, Consistent cfg t → Tx.wp function (fun _ u => Consistent cfg u) (fun _ _ => True) t)
    (h : Consistent cfg s) : Tx.wp (FileLibrary.libraryMutation env actor libraryId permission function)
      (fun _ u => Consistent cfg u) (fun _ u => Consistent cfg u) s := by
  unfold FileLibrary.libraryMutation
  rw [Tx.wp_bind]
  refine Tx.wp_mono frames_activeTemporaryAccess (fun _ s₁ h₁ => ?_) (fun _ _ h₁ => h.of_same h₁)
  have hs₁ := h.of_same h₁
  rw [Tx.wp_handle, Tx.wp_atomic]
  simp only [Tx.wp_bind]
  have hraise : ∀ e : Error,
      (∀ y : Service α, (if e = .permissionDenied then
          some (do let _ ← activeTemporaryAccess env actor; Tx.raise e) else none) = some y →
        Tx.wp y (fun _ u => Consistent cfg u) (fun _ u => Consistent cfg u) s₁) ∧
      ((if e = .permissionDenied then
          some (do let _ ← activeTemporaryAccess env actor; (Tx.raise e : Service α)) else none) = none →
        Consistent cfg s₁) := by
    intro e
    refine ⟨fun y hy => ?_, fun _ => hs₁⟩
    by_cases he : e = .permissionDenied
    · rw [if_pos he] at hy
      obtain rfl := Option.some.inj hy
      rw [Tx.wp_bind]
      refine Tx.wp_mono frames_activeTemporaryAccess (fun _ u hu => ?_) (fun _ _ hu => hs₁.of_same hu)
      rw [Tx.wp_raise]
      exact hs₁.of_same hu
    · rw [if_neg he] at hy
      cases hy
  refine Tx.wp_mono (frames_getLibrary (F := SameRows) libraryId) (fun library s₂ h₂ => ?_) (fun e _ _ => hraise e)
  refine Tx.wp_mono (frames_requireLibraryAccess (F := SameRows) permission) (fun _ s₃ h₃ => ?_) (fun e _ _ => hraise e)
  refine Tx.wp_mono (hf s₃ (hs₁.of_same (trans_of SameRows h₂ h₃))) (fun _ _ hu => hu) (fun e _ _ => hraise e)

/-! ### Row operations -/

theorem fresh_of_not_violates (h : s.violatesUniqueName cfg e = false) : Fresh cfg.lower s.entries e := by
  intro f hf hne hl hp hm
  unfold State.violatesUniqueName at h
  rw [List.any_eq_false] at h
  have hcond := h f hf
  simp [hne, hl, hp, hm] at hcond

theorem wp_createEntry : Tx.wp (createEntry cfg e)
    (fun _ t => Fresh cfg.lower s.entries e ∧ t.libraries = s.libraries ∧ t.contents = s.contents ∧
      ∃ hn, t.entries = s.entries.insert e hn) (fun _ _ => True) s := by
  unfold createEntry
  simp only [Tx.wp_bind, Tx.wp_get, Tx.wp_ensure, Tx.wp_require, Tx.wp_modify, implies_true, and_true]
  intro hfresh rows hrows
  obtain ⟨hn, rfl⟩ := Rows.insert?_eq_some hrows
  exact ⟨fresh_of_not_violates hfresh, trivial, trivial, hn, rfl⟩

theorem wp_saveEntry : Tx.wp (saveEntry cfg e)
    (fun _ t => Fresh cfg.lower s.entries e ∧ t.libraries = s.libraries ∧ t.contents = s.contents ∧
      t.entries = s.entries.save e) (fun _ _ => True) s := by
  unfold saveEntry
  simp only [Tx.wp_bind, Tx.wp_get, Tx.wp_ensure, Tx.wp_modify]
  exact ⟨fun hfresh => ⟨fresh_of_not_violates hfresh, trivial, trivial, trivial⟩, fun _ => trivial⟩

theorem wp_createContent {content : Content} : Tx.wp (createContent content)
    (fun _ t => t.libraries = s.libraries ∧ t.entries = s.entries ∧
      ∃ hn, t.contents = s.contents.insert content hn) (fun _ _ => True) s := by
  unfold createContent
  simp only [Tx.wp_bind, Tx.wp_get, Tx.wp_ensure, Tx.wp_require, Tx.wp_modify, implies_true, and_true]
  intro _ _ rows hrows
  obtain ⟨hn, rfl⟩ := Rows.insert?_eq_some hrows
  exact ⟨trivial, trivial, hn, rfl⟩

/-! ### Consistency after the row operations -/

/-- Rewriting a library row alone. -/
theorem Consistent.renamed (h : Consistent cfg s) (hl : s.libraries.find library.id = some library) (hid : row.id = library.id)
    (husage : row.usageBytes = library.usageBytes) (hlib : t.libraries = s.libraries.save row)
    (hc : t.contents = s.contents) (he : t.entries = s.entries) : Consistent cfg t := by
  have hbytes : ∀ i, t.referencedBytes i = s.referencedBytes i := by
    intro i
    simp only [State.referencedBytes, State.sizeBytes, State.contentOf, he, hc]
  refine h.update hid hlib (he ▸ h.tree) ?_ ?_ ?_ fun i _ => hbytes i
  · rw [he]
    exact h.owned
  · rw [he, hc]
    exact h.content_row
  · rw [husage, hbytes]
    exact h.usage library (Rows.mem_of_find hl)

/-- The bytes of the library of an entry, and of the others. -/
theorem State.contribution_self (he : e.library = library.id) : s.contribution library.id e = s.sizeBytes e := if_pos he

theorem State.contribution_other {i : ℕ} (he : e.library = library.id) (hi : i ≠ library.id) :
    s.contribution i e = 0 := if_neg fun h => hi (h.symm.trans he)

/-- A new entry, whose content may be new as well. -/
theorem Consistent.created (h : Consistent cfg s) (hl : s.libraries.find library.id = some library) (hid : row.id = library.id)
    (hlib : t.libraries = s.libraries.save row)
    (hc : ∀ c k, s.contents.find c = some k → t.contents.find c = some k) (hn : s.entries.find e.id = none)
    (he : t.entries = s.entries.insert e hn) (htree : Tree cfg t.entries) (hown : e.library = library.id)
    (hrow : ∀ c, e.content = some c → ∃ k, t.contents.find c = some k ∧ k.library = e.library)
    (husage : row.usageBytes = library.usageBytes + t.sizeBytes e) : Consistent cfg t := by
  have hbytes := fun i => h.referencedBytes_insert hn hc he i
  refine h.update hid hlib htree ?_ ?_ ?_ fun i hi => ?_
  · intro a ha
    rw [he, Rows.mem_insert] at ha
    rcases ha with ha | rfl
    · exact h.owned a ha
    · exact ⟨library, hown ▸ hl⟩
  · intro a ha c hac
    rw [he, Rows.mem_insert] at ha
    rcases ha with ha | rfl
    · obtain ⟨k, hk, hkl⟩ := h.content_row a ha c hac
      exact ⟨k, hc c k hk, hkl⟩
    · exact hrow c hac
  · have hold := h.usage library (Rows.mem_of_find hl)
    rw [husage, hbytes, State.contribution_self hown, hold]
  · rw [hbytes, State.contribution_other hown hi, add_zero]

/-- A rewritten entry, whose content may be new. -/
theorem Consistent.saved (h : Consistent cfg s) (hl : s.libraries.find library.id = some library) (hid : row.id = library.id)
    (hlib : t.libraries = s.libraries.save row)
    (hc : ∀ c k, s.contents.find c = some k → t.contents.find c = some k) (hn : s.entries.find e.id = some e')
    (he : t.entries = s.entries.save e) (htree : Tree cfg t.entries) (hown : e.library = library.id)
    (hown' : e'.library = library.id)
    (hrow : ∀ c, e.content = some c → ∃ k, t.contents.find c = some k ∧ k.library = e.library)
    (husage : row.usageBytes = library.usageBytes - s.sizeBytes e' + t.sizeBytes e) : Consistent cfg t := by
  have hbytes := fun i => h.referencedBytes_save hn hc he i
  refine h.update hid hlib htree ?_ ?_ ?_ fun i hi => ?_
  · intro a ha
    rw [he, Rows.mem_save] at ha
    rcases ha with ⟨ha, -⟩ | ⟨rfl, -⟩
    · exact h.owned a ha
    · exact ⟨library, hown ▸ hl⟩
  · intro a ha c hac
    rw [he, Rows.mem_save] at ha
    rcases ha with ⟨ha, -⟩ | ⟨rfl, -⟩
    · obtain ⟨k, hk, hkl⟩ := h.content_row a ha c hac
      exact ⟨k, hc c k hk, hkl⟩
    · exact hrow c hac
  · have hold := h.usage library (Rows.mem_of_find hl)
    rw [husage, hbytes, State.contribution_self hown, State.contribution_self hown', hold]
  · rw [hbytes, State.contribution_other hown hi, State.contribution_other hown' hi, add_zero, sub_zero]

/-- Deleted entries of one library. -/
theorem Consistent.deleted (h : Consistent cfg s) {q : Entry → Bool}
    (hl : s.libraries.find library.id = some library) (hid : row.id = library.id) (hlib : t.libraries = s.libraries.save row)
    (hc : t.contents = s.contents) (he : t.entries = s.entries.delete q) (htree : Tree cfg t.entries)
    (hown : ∀ e ∈ s.entries.list, q e = true → e.library = library.id)
    (husage : row.usageBytes = library.usageBytes - ((s.entries.list.filter q).map s.sizeBytes).sum) :
    Consistent cfg t := by
  have hbytes := fun i => State.referencedBytes_delete hc he i
  have hmem : ∀ a ∈ t.entries.list, a ∈ s.entries.list := by
    intro a ha
    rw [he] at ha
    exact (Rows.mem_delete.mp ha).1
  refine h.update hid hlib htree (fun a ha => h.owned a (hmem a ha)) ?_ ?_ fun i hi => ?_
  · intro a ha c hac
    rw [hc]
    exact h.content_row a (hmem a ha) c hac
  · have hold := h.usage library (Rows.mem_of_find hl)
    have hsum : (s.entries.list.filter q).map (s.contribution library.id) = (s.entries.list.filter q).map s.sizeBytes := by
      refine List.map_congr_left fun a ha => ?_
      obtain ⟨ham, hq⟩ := List.mem_filter.mp ha
      exact State.contribution_self (hown a ham hq)
    rw [husage, hbytes, hsum, hold]
  · have hzero : (s.entries.list.filter q).map (s.contribution i) = (s.entries.list.filter q).map fun _ => 0 := by
      refine List.map_congr_left fun a ha => ?_
      obtain ⟨ham, hq⟩ := List.mem_filter.mp ha
      exact State.contribution_other (hown a ham hq) hi
    rw [hbytes, hzero]
    simp

/-! ### The mutations -/

/-- The row of an entry placed where a location check passed. -/
theorem Fits.fresh_upper {parent entry : Option ℕ} {folder : Bool} {d : ℕ} {name : String} {i : ℕ}
    (h : Fits cfg s.entries i name parent entry folder d) (hl : e.library = i) (hp : e.parent = parent)
    (hname : e.name = name) (hentry : ∀ f ∈ s.entries.list, f.id ≠ e.id → some f.id ≠ entry) :
    Fresh cfg.upper s.entries e := by
  intro f hf hne hfl hfp
  rw [hname]
  exact h.fresh f hf (hentry f hf hne) (hfl.trans hl) (hfp.trans hp)

/-- A mutation goes on with the library it has locked. -/
theorem Consistent.locked {α : Type} {libraryId : ℕ} {permission : Permission} {f : Library × Access → Service α}
    (h : Consistent cfg s) (hf : ∀ library access s₁, Consistent cfg s₁ → s₁.libraries.find library.id = some library →
      Tx.wp (f (library, access)) (fun _ t => Consistent cfg t) (fun _ _ => True) s₁) :
    Tx.wp (lockedLibrary env actor libraryId permission >>= f) (fun _ t => Consistent cfg t) (fun _ _ => True) s := by
  rw [Tx.wp_bind]
  refine Tx.wp_mono (wp_lockedLibrary libraryId _) (fun r s₁ hr => ?_) (fun _ _ _ => trivial)
  obtain ⟨library, access⟩ := r
  obtain ⟨hsame, hl⟩ := hr
  rw [← hsame.1] at hl
  exact hf library access s₁ (h.of_same hsame) ((Rows.key_of_find hl).symm ▸ hl)

theorem Consistent.renameLibrary {libraryId : ℕ} {name : String} (h : Consistent cfg s) :
    Tx.wp (FileLibrary.renameLibrary cfg env actor libraryId name)
      (fun _ t => Consistent cfg t) (fun _ t => Consistent cfg t) s := by
  unfold FileLibrary.renameLibrary
  refine Consistent.libraryMutation (fun s h => h.locked fun library access s₁ h₁ hl => ?_) h
  simp only [Tx.wp_bind, Tx.wp_whenever, Tx.wp_ofExcept]
  refine ⟨fun name _ => ⟨fun _ => ?_, fun _ => h₁⟩, fun _ _ => trivial⟩
  refine Tx.wp_mono wp_changed (fun _ t ht => ?_) (fun _ _ _ => trivial)
  obtain ⟨hlib, hc, he⟩ := ht
  exact h₁.renamed hl (by rfl) (by rfl) hlib hc he

theorem Consistent.createFolder {libraryId id : ℕ} {name : String} {parentId : Option ℕ} (h : Consistent cfg s) :
    Tx.wp (FileLibrary.createFolder cfg env actor libraryId name parentId id)
      (fun _ t => Consistent cfg t) (fun _ t => Consistent cfg t) s := by
  unfold FileLibrary.createFolder
  refine Consistent.libraryMutation (fun s h => h.locked fun library access s₁ h₁ hl => ?_) h
  simp only [Tx.wp_bind, Tx.wp_ofExcept, Tx.wp_get, implies_true, and_true]
  intro name _ parent hparent _ hv
  obtain ⟨d, hfits⟩ := h₁.tree.fits_of_validate (State.parentEntry_eq_ok hparent) hv (by simp)
  refine Tx.wp_mono wp_createEntry (fun _ s₂ h₂ => ?_) (fun _ _ _ => trivial)
  obtain ⟨hlower, hlib₂, hc₂, hn, he₂⟩ := h₂
  refine Tx.wp_mono wp_changed (fun _ t ht => ?_) (fun _ _ _ => trivial)
  obtain ⟨hlib, hc, he⟩ := ht
  have htree := h₁.tree.insert hn hfits.located (fun _ => hfits.level rfl)
    (hfits.fresh_upper rfl rfl rfl (by simp)) hlower
  have hkeep : ∀ c k, s₁.contents.find c = some k → t.contents.find c = some k := by
    intro c k hk
    rw [hc, hc₂, hk]
  exact h₁.created hl (by rfl) (hlib₂ ▸ hlib) hkeep hn (he.trans he₂) (he.trans he₂ ▸ htree) rfl (by simp)
    (by simp [State.sizeBytes, State.contentOf])

/-- Everything below an entry is in its library. -/
theorem Tree.library_of_below (h : Tree cfg s.entries) {e f : Entry} {k m : ℕ}
    (hb : (entryLinks s.entries).Below e.id k m) (he : s.entries.find e.id = some e) (hf : s.entries.find k = some f) :
    f.library = e.library := by
  induction hb generalizing f with
  | refl =>
    rw [he] at hf
    cases hf
    rfl
  | step hp _ ih =>
    rw [entryLinks_of_find hf] at hp
    obtain ⟨g, hg, hgl, -⟩ := h.parent_folder f (Rows.mem_of_find hf) _ (Option.some.inj hp)
    exact hgl.symm.trans (ih hg)

/-- Below a document there is only the document. -/
theorem Tree.folder_of_below (h : Tree cfg s.entries) {e f : Entry} {m : ℕ} (he : s.entries.find e.id = some e)
    (hf : f ∈ s.entries.list) (hfolder : f.isFolder = true) (hb : (entryLinks s.entries).Below e.id f.id m) :
    e.isFolder = true := by
  cases m with
  | zero =>
    generalize hk : f.id = k at hb
    cases hb
    have hrow := Rows.find_of_mem hf
    rw [hk, he] at hrow
    cases hrow
    exact hfolder
  | succ m =>
    obtain ⟨j, hj, -⟩ := hb.child
    obtain ⟨a, ha, hp⟩ := entryLinks_eq_some hj
    obtain ⟨g, hg, -, hgf⟩ := h.parent_folder a (Rows.mem_of_find ha) e.id hp
    rw [he] at hg
    cases hg
    exact hgf

theorem Consistent.editEntry {libraryId entryId : ℕ} {name : Option String} {parentId : Option ℕ} {move : Bool}
    (h : Consistent cfg s) :
    Tx.wp (FileLibrary.editEntry cfg env actor libraryId entryId name parentId move)
      (fun _ t => Consistent cfg t) (fun _ t => Consistent cfg t) s := by
  unfold FileLibrary.editEntry
  refine Consistent.libraryMutation (fun s h => h.locked fun library access s₁ h₁ hl => ?_) h
  simp only [Tx.wp_bind, Tx.wp_ofExcept, Tx.wp_get, Tx.wp_ite, Tx.wp_pure]
  refine ⟨fun entry hentry => ⟨fun newName _ => ⟨fun parent hparent => ⟨fun _ hv => ⟨fun _ => h₁, fun _ => ?_⟩,
    fun _ _ => trivial⟩, fun _ _ => trivial⟩, fun _ _ => trivial⟩, fun _ _ => trivial⟩
  obtain ⟨hfind, hown, -⟩ := State.scopedEntry_eq_ok hentry
  have hrow : s₁.entries.find entry.id = some entry := (Rows.key_of_find hfind) ▸ hfind
  have hmem := Rows.mem_of_find hfind
  have hfolder : FolderRow s₁ library.id parent := by
    cases move with
    | true => exact State.parentEntry_eq_ok hparent
    | false => exact hown ▸ h₁.tree.folderRow_parentOf hmem hparent
  obtain ⟨d, hfits⟩ := h₁.tree.fits_of_validate hfolder hv fun i hi hk => by
    obtain rfl := Option.some.inj hi
    exact ⟨entry, hmem, rfl, hk⟩
  have hmoved : ∃ moved : Entry, moved = { entry with name := newName, parent := parent.map (·.id), modifiedBy := actor } :=
    ⟨_, rfl⟩
  obtain ⟨moved, hmoved⟩ := hmoved
  rw [← hmoved]
  have hid' : moved.id = entry.id := by rw [hmoved]
  have hown' : moved.library = library.id := by rw [hmoved]; exact hown
  have hparent' : moved.parent = parent.map (·.id) := by rw [hmoved]
  have hcontent' : moved.content = entry.content := by rw [hmoved]
  have hkind : moved.isFolder = entry.isFolder := by rw [hmoved]; rfl
  have hrow' : s₁.entries.find moved.id = some entry := hid' ▸ hrow
  refine Tx.wp_mono wp_saveEntry (fun _ s₂ h₂ => ?_) (fun _ _ _ => trivial)
  obtain ⟨hlower, hlib₂, hc₂, he₂⟩ := h₂
  refine Tx.wp_mono wp_changed (fun _ t ht => ?_) (fun _ _ _ => trivial)
  obtain ⟨hlib, hc, he⟩ := ht
  have hupper := hfits.fresh_upper hown' hparent' (by rw [hmoved]) fun f _ hne hf =>
    hne ((Option.some.inj hf).trans hid'.symm)
  have hlocated : Located s₁.entries moved.library moved.parent d := by
    rw [hown', hparent']
    exact hfits.located
  have htree := h₁.tree.save hrow' (hown'.trans hown.symm) hkind hlocated
    (fun p hp => hid' ▸ hfits.outside entry.id rfl p (hparent' ▸ hp))
    (fun f hf hff m hb => hfits.subtree entry.id rfl (h₁.tree.folder_of_below hrow hf hff (hid' ▸ hb)) f hf hff m
      (hid' ▸ hb))
    hupper hlower
  have hkeep : ∀ c k, s₁.contents.find c = some k → t.contents.find c = some k := by
    intro c k hk
    rw [hc, hc₂, hk]
  have hsize : t.sizeBytes moved = s₁.sizeBytes entry := by
    simp only [State.sizeBytes, State.contentOf, hc, hc₂, hcontent']
  refine h₁.saved hl (by rfl) (hlib₂ ▸ hlib) hkeep hrow' (he.trans he₂) (he.trans he₂ ▸ htree) hown' hown
    (fun c hcc => ?_) ?_
  · obtain ⟨k, hk, hkl⟩ := h₁.content_row entry hmem c (hcontent' ▸ hcc)
    exact ⟨k, hkeep c k hk, hkl.trans (hown.trans hown'.symm)⟩
  · rw [hsize]
    dsimp only
    omega

theorem Consistent.deleteEntry {libraryId entryId : ℕ} (h : Consistent cfg s) :
    Tx.wp (FileLibrary.deleteEntry cfg env actor libraryId entryId)
      (fun _ t => Consistent cfg t) (fun _ t => Consistent cfg t) s := by
  unfold FileLibrary.deleteEntry
  refine Consistent.libraryMutation (fun s h => h.locked fun library access s₁ h₁ hl => ?_) h
  simp only [Tx.wp_bind, Tx.wp_ofExcept, Tx.wp_get, Tx.wp_modify, implies_true, and_true]
  intro entry hentry levels hlevels
  obtain ⟨hfind, hown, -⟩ := State.scopedEntry_eq_ok hentry
  have hrow : s₁.entries.find entry.id = some entry := (Rows.key_of_find hfind) ▸ hfind
  refine Tx.wp_mono wp_changed (fun _ s₂ h₂ => ?_) (fun _ _ _ => trivial)
  obtain ⟨hlib, hc, he⟩ := h₂
  have htree : Tree cfg (s₁.entries.delete fun e => decide (e.id ∈ levels.flatten)) := by
    apply h₁.tree.delete
    intro a ha p b hap hb hq
    obtain rfl : b.id = p := Rows.key_of_find hb
    exact decide_eq_true (State.mem_subtree_of_parent hlevels ha hap (of_decide_eq_true hq))
  have hinside : ∀ e ∈ s₁.entries.list, decide (e.id ∈ levels.flatten) = true → e.library = library.id := by
    intro e hmem hq
    obtain ⟨level, hlevel, hin⟩ := List.mem_flatten.mp (of_decide_eq_true hq)
    obtain ⟨k, hk⟩ := List.mem_iff_getElem?.mp hlevel
    obtain ⟨i, hi, hb⟩ := Links.below_of_mem_levels (fun _ _ hc => link_of_mem_childIds hc)
      (State.subtreeLevels_eq_ok hlevels) hk hin
    obtain rfl := List.mem_singleton.mp hi
    exact (h₁.tree.library_of_below hb hrow (Rows.find_of_mem hmem)).trans hown
  have h₂ : Consistent cfg s₂ :=
    h₁.deleted hl (by rfl) hlib hc he (he ▸ htree) hinside (by dsimp only)
  cases access with
  | normal => exact h₂
  | temporary =>
    simp only [Tx.wp_bind]
    exact Tx.wp_mono (frames_revokeTemporaryAccess _) (fun _ _ h₃ => h₂.of_same h₃) (fun _ _ _ => trivial)

/-- A content row more. -/
theorem find_of_insert_content {content k : Content} {c : ℕ} {hn : s.contents.find content.id = none}
    (ht : t.contents = s.contents.insert content hn) (hk : s.contents.find c = some k) : t.contents.find c = some k := by
  rw [ht, Rows.find_insert, if_neg, hk]
  rintro rfl
  rw [hn] at hk
  cases hk

theorem find_inserted_content {content : Content} {hn : s.contents.find content.id = none}
    (ht : t.contents = s.contents.insert content hn) : t.contents.find content.id = some content := by
  rw [ht, Rows.find_insert, if_pos rfl]

/-- The rows of an upload of a new document. -/
theorem Consistent.uploaded_new {name : String} {upload : Upload} {content : Content} {parent : Option Entry} {d : ℕ}
    (h : Consistent cfg s) (env : Env) (usage : ℤ) (hl : s.libraries.find library.id = some library)
    (hfits : Fits cfg s.entries library.id name (parent.map (·.id)) none false d)
    (hcontent : content.library = library.id) (husage : usage = library.usageBytes + content.sizeBytes) :
    Tx.wp (writeUpload cfg actor library none parent name upload content)
      (fun _ u => Tx.wp (changed cfg env actor { library with usageBytes := usage })
        (fun _ t => Consistent cfg t) (fun _ _ => True) u) (fun _ _ => True) s := by
  unfold writeUpload
  simp only [Tx.wp_bind, Tx.wp_pure]
  refine Tx.wp_mono wp_createContent (fun _ s₁ h₁ => ?_) (fun _ _ _ => trivial)
  obtain ⟨hlib₁, he₁, hn, hc₁⟩ := h₁
  refine Tx.wp_mono wp_createEntry (fun _ s₂ h₂ => ?_) (fun _ _ _ => trivial)
  rw [hlib₁, he₁] at h₂
  obtain ⟨hlower, hlib₂, hc₂, hne, he₂⟩ := h₂
  refine Tx.wp_mono wp_changed (fun _ t ht => ?_) (fun _ _ _ => trivial)
  obtain ⟨hlib, hc, he⟩ := ht
  rw [hlib₂] at hlib
  rw [he₂] at he
  have hcontents : t.contents = s.contents.insert content hn := (hc.trans hc₂).trans hc₁
  have htree := h.tree.insert hne hfits.located (by simp [Entry.isFolder])
    (hfits.fresh_upper rfl rfl rfl (by simp)) hlower
  refine h.created hl (by rfl) hlib (fun c k hk => find_of_insert_content hcontents hk) hne he (he ▸ htree) rfl
    (fun c hcc => ?_) ?_
  · obtain rfl := Option.some.inj hcc
    exact ⟨content, find_inserted_content hcontents, hcontent⟩
  · simp only [State.sizeBytes, State.contentOf, Option.bind_some, find_inserted_content hcontents, Option.map_some,
      Option.getD_some]
    exact husage

/-- The rows of a replacement: the document keeps its name and its place. -/
theorem Consistent.uploaded_replacing {name : String} {upload : Upload} {content : Content} {parent : Option Entry}
    (h : Consistent cfg s) (env : Env) (usage : ℤ) (hl : s.libraries.find library.id = some library)
    (he : s.entries.find e.id = some e) (hown : e.library = library.id) (hdoc : e.isFolder = false)
    (hcontent : content.library = library.id)
    (husage : usage = library.usageBytes - s.sizeBytes e + content.sizeBytes) :
    Tx.wp (writeUpload cfg actor library (some e) parent name upload content)
      (fun _ u => Tx.wp (changed cfg env actor { library with usageBytes := usage })
        (fun _ t => Consistent cfg t) (fun _ _ => True) u) (fun _ _ => True) s := by
  unfold writeUpload
  simp only [Tx.wp_bind, Tx.wp_pure]
  refine Tx.wp_mono wp_createContent (fun _ s₁ h₁ => ?_) (fun _ _ _ => trivial)
  obtain ⟨hlib₁, he₁, hn, hc₁⟩ := h₁
  have hsaved : ∃ saved : Entry, saved = { e with content := some content.id, modifiedBy := actor } := ⟨_, rfl⟩
  obtain ⟨saved, hsaved⟩ := hsaved
  rw [← hsaved]
  have hid' : saved.id = e.id := by rw [hsaved]
  have hown' : saved.library = library.id := by rw [hsaved]; exact hown
  have hcontent' : saved.content = some content.id := by rw [hsaved]
  have hkind : saved.isFolder = e.isFolder := by rw [hdoc, Entry.isFolder, hcontent']; rfl
  have hrow : s.entries.find saved.id = some e := hid' ▸ he
  refine Tx.wp_mono wp_saveEntry (fun _ s₂ h₂ => ?_) (fun _ _ _ => trivial)
  rw [hlib₁, he₁] at h₂
  obtain ⟨-, hlib₂, hc₂, he₂⟩ := h₂
  refine Tx.wp_mono wp_changed (fun _ t ht => ?_) (fun _ _ _ => trivial)
  obtain ⟨hlib, hc, he⟩ := ht
  rw [hlib₂] at hlib
  rw [he₂] at he
  have hcontents : t.contents = s.contents.insert content hn := (hc.trans hc₂).trans hc₁
  have htree := h.tree.resave hrow (hown'.trans hown.symm) hkind (by rw [hsaved]) (by rw [hsaved])
  refine h.saved hl (by rfl) hlib (fun c k hk => find_of_insert_content hcontents hk) hrow he (he ▸ htree) hown' hown
    (fun c hcc => ?_) ?_
  · rw [hcontent'] at hcc
    obtain rfl := Option.some.inj hcc
    exact ⟨content, find_inserted_content hcontents, hcontent.trans hown'.symm⟩
  · simp only [State.sizeBytes, State.contentOf, hcontent', Option.bind_some, find_inserted_content hcontents,
      Option.map_some, Option.getD_some]
    exact husage

theorem Consistent.acceptUpload {libraryId size : ℕ} {name : String} {upload : Upload} {digest : Digest}
    (h : Consistent cfg s) : Tx.wp (FileLibrary.acceptUpload cfg env actor libraryId name upload size digest)
      (fun _ t => Consistent cfg t) (fun _ t => Consistent cfg t) s := by
  unfold FileLibrary.acceptUpload
  rw [Tx.wp_atomic, Tx.wp_bind]
  refine Tx.wp_mono (wp_lockedLibrary libraryId _) (fun r s₁ hr => ?_) (fun _ _ _ => h)
  obtain ⟨library, access⟩ := r
  obtain ⟨hsame, hl⟩ := hr
  have h₁ := h.of_same hsame
  rw [← hsame.1] at hl
  have hid : library.id = libraryId := Rows.key_of_find hl
  simp only [Tx.wp_bind, Tx.wp_ofExcept, Tx.wp_get, Tx.wp_ensure]
  refine ⟨fun entry hentry => ⟨fun hdocument => ⟨fun parent hparent => ⟨fun _ hv => ?_, fun _ _ => h⟩, fun _ _ => h⟩,
    fun _ => h⟩, fun _ _ => h⟩
  refine Tx.wp_mono (frames_quotaBytes (F := SameRows)) (fun quota s₂ h₂ => ?_) (fun _ _ _ => h)
  refine ⟨fun hquota => ⟨fun _ _ => ?_, fun _ _ => h⟩, fun _ => h⟩
  have hs₂ := h₁.of_same h₂
  obtain ⟨hl₂, hc₂, he₂⟩ := h₂
  rw [← hl₂, ← hid] at hl
  cases entry with
  | none =>
    obtain ⟨d, hfits⟩ := h₁.tree.fits_of_validate (State.parentEntry_eq_ok hparent) hv (by simp)
    rw [← he₂] at hfits
    refine Tx.wp_mono (hs₂.uploaded_new env (library.usageBytes - 0 + size) hl hfits rfl ?_) (fun _ _ hu => ?_)
      (fun _ _ _ => h)
    · dsimp only
      omega
    · exact Tx.wp_mono hu (fun _ _ ht => ht) fun _ _ _ => h
  | some e =>
    have hfound : ∃ id, s₁.scopedEntry library.id id = .ok e := by
      cases hreplace : upload.replaceId with
      | none =>
        rw [hreplace] at hentry
        cases hentry
      | some id =>
        rw [hreplace] at hentry
        refine ⟨id, ?_⟩
        cases hscoped : s₁.scopedEntry library.id id with
        | error _ =>
          simp only [hscoped] at hentry
          cases hentry
        | ok a =>
          simp only [hscoped] at hentry
          cases hentry
          rfl
    obtain ⟨id, hscoped⟩ := hfound
    obtain ⟨hfind, hown, -⟩ := State.scopedEntry_eq_ok hscoped
    have hrow : s₁.entries.find e.id = some e := (Rows.key_of_find hfind) ▸ hfind
    have hsize : s₂.sizeBytes e = s₁.sizeBytes e := by simp only [State.sizeBytes, State.contentOf, hc₂]
    refine Tx.wp_mono (hs₂.uploaded_replacing env (library.usageBytes - s₁.sizeBytes e + size) hl (he₂ ▸ hrow) hown
      (hdocument e rfl) rfl ?_) (fun _ _ hu => ?_) (fun _ _ _ => h)
    · rw [hsize]
    · exact Tx.wp_mono hu (fun _ _ ht => ht) fun _ _ _ => h

theorem Consistent.uploadPdf {libraryId : ℕ} {upload : Upload} (h : Consistent cfg s) :
    Tx.wp (FileLibrary.uploadPdf cfg env actor libraryId upload)
      (fun _ t => Consistent cfg t) (fun _ t => Consistent cfg t) s := by
  unfold FileLibrary.uploadPdf
  rw [Tx.wp_bind]
  refine Tx.wp_mono frames_activeTemporaryAccess (fun _ s₁ h₁ => ?_) (fun _ _ h₁ => h.of_same h₁)
  have hs₁ := h.of_same h₁
  rw [Tx.wp_bind]
  refine Tx.wp_mono (frames_getLibrary libraryId) (fun library s₂ h₂ => ?_) (fun _ _ h₂ => hs₁.of_same h₂)
  have hs₂ := hs₁.of_same h₂
  simp only [Tx.wp_bind, Tx.wp_ofExcept, Tx.wp_ensure]
  refine ⟨fun _ _ => ⟨fun name _ => ⟨fun _ => ⟨fun _ => ⟨fun prepared _ => ?_, fun _ _ => hs₂⟩, fun _ => hs₂⟩,
    fun _ => hs₂⟩, fun _ _ => hs₂⟩, fun _ _ => hs₂⟩
  obtain ⟨size, digest⟩ := prepared
  exact ⟨fun _ => hs₂.acceptUpload, fun _ => hs₂⟩

end FireDash.FileLibrary
