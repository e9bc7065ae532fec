import FireDash.FileLibrary.StorageAgreement

/-! What a reconciliation removes: alone, and among the other processes. -/
namespace FireDash.FileLibrary.Storage

open Publications (Digest Time)

variable {cfg : Config} {sha256 : List UInt8 → Digest} {s t u : Storage} {pass : Pass} {n : ℕ}

/-! ### A pass that runs alone -/

/-- The file is named by no row and older than the grace period. -/
def isOld (s : Storage) (pass : Pass) (f : StoredFile) : Bool :=
  (s.rows.contents.list.all fun c => c.storageKey ≠ f.key) ∧ f.modified < pass.startedAt - pass.grace

theorem isOrphan_of_find {key : String} {f : StoredFile} (h : s.files.find key = some f) :
    s.isOrphan pass key = s.isOld pass f := by
  have hkey : f.key = key := Rows.key_of_find h
  simp only [isOrphan, isOld, h, hkey, Option.mem_some_iff, exists_eq_left']

/-- The files a pass leaves of those it looks at. -/
def swept (s : Storage) (pass : Pass) (p : StoredFile → Bool) : Storage :=
  if pass.dryRun then s else { s with files := s.files.delete fun f => p f && s.isOld pass f }

theorem isOld_swept {p : StoredFile → Bool} : (s.swept pass p).isOld pass = s.isOld pass := by
  unfold swept
  split <;> rfl

theorem swept_of_none {p : StoredFile → Bool} (h : ∀ f ∈ s.files.list, (p f && s.isOld pass f) = false) :
    s.swept pass p = s := by
  unfold swept
  split
  · rfl
  · rw [Rows.delete_eq_self h]

theorem swept_congr {p q : StoredFile → Bool} (h : ∀ f ∈ s.files.list, p f = q f) : s.swept pass p = s.swept pass q := by
  unfold swept
  split
  · rfl
  · rw [Rows.delete_congr fun f hf => by rw [h f hf]]

theorem swept_swept (p q : StoredFile → Bool) : (s.swept pass p).swept pass q = s.swept pass fun f => p f || q f := by
  have hold : (s.swept pass p).isOld pass = s.isOld pass := isOld_swept
  unfold swept at hold ⊢
  split
  · rfl
  · rename_i hreal
    rw [if_neg hreal] at hold
    rw [hold, Rows.delete_delete]
    simp only [Bool.and_or_distrib_right]

theorem find_swept {p : StoredFile → Bool} {f : StoredFile} (hf : s.files.find f.key = some f) (hp : p f = false) :
    (s.swept pass p).files.find f.key = some f := by
  unfold swept
  split
  · exact hf
  · show (s.files.delete _).find f.key = some f
    rw [Rows.find_delete, hf, Option.filter_some, if_pos]
    simp [hp]

theorem sweepFile_eq {f : StoredFile} (hf : s.files.find f.key = some f) : sweepFile pass (n, s) f.key =
    (n + (if s.isOld pass f then 1 else 0), s.swept pass fun g => g.key = f.key) := by
  have hone : ∀ g ∈ s.files.list, g.key = f.key → g = f := by
    intro g hg hkey
    exact Rows.eq_of_key hg (Rows.mem_of_find hf) hkey
  unfold sweepFile
  rw [isOrphan_of_find hf]
  by_cases hold : s.isOld pass f = true
  · rw [if_pos hold, if_pos hold]
    refine Prod.ext rfl ?_
    unfold swept unlink
    dsimp only
    split
    · rfl
    · rw [Rows.delete_congr fun g hg => ?_]
      by_cases hkey : g.key = f.key
      · rw [hone g hg hkey, hold, Bool.and_true]
      · simp [hkey]
  · rw [if_neg hold, if_neg hold]
    refine Prod.ext rfl ?_
    refine (swept_of_none fun g hg => ?_).symm
    by_cases hkey : g.key = f.key
    · rw [hone g hg hkey]
      simp [hold]
    · simp [hkey]

/-- One pass over some of the files. -/
theorem foldl_sweepFile {l : List StoredFile} (hl : (l.map (·.key)).Nodup) (hfind : ∀ f ∈ l, s.files.find f.key = some f) :
    (l.map (·.key)).foldl (sweepFile pass) (n, s) =
      (n + l.countP (s.isOld pass), s.swept pass fun f => f.key ∈ l.map (·.key)) := by
  induction l generalizing n s with
  | nil => exact Prod.ext rfl (swept_of_none fun f _ => by simp).symm
  | cons f l ih =>
    rw [List.map_cons, List.nodup_cons] at hl
    have hrest : ∀ g ∈ l, (s.swept pass fun g => g.key = f.key).files.find g.key = some g := by
      intro g hg
      refine find_swept (hfind g (List.mem_cons_of_mem f hg)) ?_
      simp only [decide_eq_false_iff_not]
      intro hkey
      exact hl.1 (hkey ▸ List.mem_map_of_mem hg)
    rw [List.map_cons, List.foldl_cons, sweepFile_eq (hfind f List.mem_cons_self), ih hl.2 hrest, isOld_swept,
      swept_swept, List.countP_cons]
    refine Prod.ext ?_ (swept_congr fun g _ => ?_)
    · show n + _ + _ = n + (_ + _)
      omega
    · simp [Bool.decide_or]

theorem sweepDirectory_eq (directory : ℕ) : sweepDirectory pass (n, s) directory =
    (n + s.files.list.countP fun f => s.isOld pass f && decide (f.library = directory),
      s.swept pass fun f => f.library = directory) := by
  have hnodup : ((s.files.list.filter fun f => f.library = directory).map (·.key)).Nodup :=
    s.files.nodup.sublist (List.filter_sublist.map _)
  have hfind : ∀ f ∈ s.files.list.filter fun f => f.library = directory, s.files.find f.key = some f :=
    fun f hf => Rows.find_of_mem (List.mem_filter.mp hf).1
  unfold sweepDirectory glob
  rw [foldl_sweepFile hnodup hfind, List.countP_filter]
  refine Prod.ext rfl (swept_congr fun f hf => ?_)
  simp only [decide_eq_decide, List.mem_map, List.mem_filter, decide_eq_true_eq]
  constructor
  · rintro ⟨g, ⟨hg, hlibrary⟩, hkey⟩
    rwa [Rows.eq_of_key hg hf hkey] at hlibrary
  · intro hlibrary
    exact ⟨f, ⟨hf, hlibrary⟩, rfl⟩

/-- One pass over some of the directories. -/
theorem foldl_sweepDirectory {l : List ℕ} (hl : l.Nodup) : l.foldl (sweepDirectory pass) (n, s) =
    (n + s.files.list.countP fun f => s.isOld pass f && decide (f.library ∈ l), s.swept pass fun f => f.library ∈ l) := by
  induction l generalizing n s with
  | nil => exact Prod.ext (by simp) (swept_of_none fun f _ => by simp).symm
  | cons d l ih =>
    rw [List.nodup_cons] at hl
    have hcount : (s.swept pass fun f => f.library = d).files.list.countP
        (fun f => s.isOld pass f && decide (f.library ∈ l)) =
        s.files.list.countP fun f => s.isOld pass f && decide (f.library ∈ l) := by
      unfold swept
      split
      · rfl
      · show (s.files.list.filter _).countP _ = _
        rw [List.countP_filter]
        refine List.countP_congr fun f _ => ?_
        by_cases hd : f.library = d
        · simp [hd, hl.1]
        · simp [hd]
    rw [List.foldl_cons, sweepDirectory_eq, ih hl.2, isOld_swept, swept_swept, hcount]
    refine Prod.ext ?_ (swept_congr fun f _ => by simp [Bool.decide_or])
    have hsplit := List.countP_eq_countP_filter_add s.files.list (fun f => s.isOld pass f && decide (f.library ∈ d :: l))
      fun f => decide (f.library = d)
    rw [List.countP_filter, List.countP_filter] at hsplit
    show n + _ + _ = n + _
    rw [hsplit, Nat.add_assoc]
    congr 2
    · refine List.countP_congr fun f _ => ?_
      by_cases hd : f.library = d <;> simp [hd]
    · refine List.countP_congr fun f _ => ?_
      by_cases hd : f.library = d
      · simp [hd, hl.1]
      · simp [hd]

/-- A pass that runs alone counts the old files without a row, and unlinks them unless it is dry. -/
theorem reconcileOrphans_eq {grace : Time} (hgrace : Publications.day ≤ grace) (dryRun : Bool) :
    s.reconcileOrphans grace dryRun = some (s.files.list.countP (s.isOld (s.newPass grace dryRun)),
      s.swept (s.newPass grace dryRun) fun _ => true) := by
  have hlibrary : ∀ f ∈ s.files.list, f.library ∈ (s.newPass grace dryRun).directories := by
    intro f hf
    exact List.mem_dedup.mpr (List.mem_map_of_mem hf)
  have hnodup : (s.newPass grace dryRun).directories.Nodup := List.nodup_dedup _
  simp only [reconcileOrphans, if_neg (Nat.not_lt.mpr hgrace)]
  rw [foldl_sweepDirectory hnodup, Nat.zero_add]
  congr 1
  refine Prod.ext (List.countP_congr fun f hf => ?_) (swept_congr fun f hf => ?_)
  · simp [hlibrary f hf]
  · simp [hlibrary f hf]

/-! ### The process of a pass, alone -/

/-- The steps of one pass. -/
def passActions (i : ℕ) : List Action :=
  [.enterDirectory i, .checkFile i, .unlinkFile i, .leaveDirectory i, .finishPass i]

/-- The pass `i` takes steps, and nothing else happens. -/
def Alone (cfg : Config) (sha256 : List UInt8 → Digest) (i : ℕ) : Storage → Storage → Prop :=
  Relation.ReflTransGen fun s t => ∃ a ∈ passActions i, s.step cfg sha256 a = some t

/-- The process of a pass has come as far as `r` in the function. -/
structure Mirrors (i : ℕ) (pass : Pass) (directories : List ℕ) (phase : PassPhase) (locks : ℕ → Option Holder)
    (r : ℕ × Storage) (s : Storage) : Prop where
  rows : s.rows = r.2.rows
  files : s.files = r.2.files
  locks : s.locks = locks
  pass : s.passes.find i = some { pass with directories := directories, phase := phase, removed := r.1 }

variable {i directory : ℕ} {directories : List ℕ} {locks : ℕ → Option Holder} {r : ℕ × Storage} {phase : PassPhase}

theorem Alone.single {a : Action} (ha : a ∈ passActions i) (hs : s.step cfg sha256 a = some t) :
    Alone cfg sha256 i s t := Relation.ReflTransGen.single ⟨a, ha, hs⟩

theorem Mirrors.isOrphan (h : Mirrors i pass directories phase locks r s) (key : String) {p : Pass}
    (hg : p.grace = pass.grace) (hs : p.startedAt = pass.startedAt) : s.isOrphan p key = r.2.isOrphan pass key := by
  simp only [Storage.isOrphan, h.rows, h.files, hg, hs]

theorem Mirrors.modifyPass (h : Mirrors i pass directories phase locks r s) {f : Pass → Pass} {p : Pass}
    (hf : f { pass with directories := directories, phase := phase, removed := r.1 } = p) :
    (s.modifyPass i f).passes.find i = some p := by
  show (s.passes.modify i f).find i = _
  rw [Table.find_modify, if_pos rfl, h.pass, Option.map_some, hf]

theorem alone_file {key : String} {pending : List String}
    (h : Mirrors i pass directories (.inside directory (key :: pending)) locks r s) :
    ∃ t, Alone cfg sha256 i s t ∧ Mirrors i pass directories (.inside directory pending) locks (sweepFile pass r key) t := by
  obtain ⟨n, v⟩ := r
  have hcheck : s.step cfg sha256 (.checkFile i) = some (s.modifyPass i (Pass.move
      (if v.isOrphan pass key then .unlinking directory pending key else .inside directory pending))) := by
    have hsame := h.isOrphan key (p := { pass with
      directories := directories, phase := .inside directory (key :: pending), removed := n }) rfl rfl
    simp only [Storage.step, h.pass, Option.bind_eq_bind, Option.bind_some, hsame]
  unfold sweepFile
  by_cases horphan : v.isOrphan pass key = true
  · rw [if_pos horphan] at hcheck ⊢
    have hchecked := h.modifyPass (f := Pass.move (.unlinking directory pending key)) rfl
    have hunlink : (s.modifyPass i (Pass.move (.unlinking directory pending key))).step cfg sha256 (.unlinkFile i) =
        some ((if pass.dryRun then s.modifyPass i (Pass.move (.unlinking directory pending key))
          else (s.modifyPass i (Pass.move (.unlinking directory pending key))).unlink key).modifyPass i fun pass =>
            { pass with removed := pass.removed + 1, phase := .inside directory pending }) := by
      simp only [Storage.step, hchecked, Option.bind_eq_bind, Option.bind_some, Pass.move]
    refine ⟨_, (Alone.single (by simp [passActions]) hcheck).trans (Alone.single (by simp [passActions]) hunlink), ?_⟩
    by_cases hdry : pass.dryRun = true
    · rw [if_pos hdry, if_pos hdry]
      refine ⟨h.rows, h.files, h.locks, ?_⟩
      show ((s.modifyPass i _).passes.modify i _).find i = _
      rw [Table.find_modify, if_pos rfl, hchecked]
      rfl
    · rw [if_neg hdry, if_neg hdry]
      refine ⟨h.rows, congrArg (fun files => files.delete fun f => f.key = key) h.files, h.locks, ?_⟩
      show ((s.modifyPass i _).passes.modify i _).find i = _
      rw [Table.find_modify, if_pos rfl, hchecked]
      rfl
  · rw [if_neg horphan] at hcheck ⊢
    exact ⟨_, Alone.single (by simp [passActions]) hcheck, h.rows, h.files, h.locks, h.modifyPass rfl⟩

theorem alone_files {keys : List String} (h : Mirrors i pass directories (.inside directory keys) locks r s) :
    ∃ t, Alone cfg sha256 i s t ∧
      Mirrors i pass directories (.inside directory []) locks (keys.foldl (sweepFile pass) r) t := by
  induction keys generalizing r s with
  | nil => exact ⟨s, .refl, h⟩
  | cons key keys ih =>
    obtain ⟨t, hst, ht⟩ : ∃ t, Alone cfg sha256 i s t ∧ Mirrors i pass directories (.inside directory keys) locks
        (sweepFile pass r key) t := alone_file h
    obtain ⟨u, htu, hu⟩ := ih ht
    exact ⟨u, hst.trans htu, hu⟩

theorem alone_directory (hfree : locks directory = none)
    (h : Mirrors i pass (directory :: directories) .between locks r s) :
    ∃ t, Alone cfg sha256 i s t ∧ Mirrors i pass directories .between locks (sweepDirectory pass r directory) t := by
  have henter : s.step cfg sha256 (.enterDirectory i) = some ((s.modifyPass i fun pass => { pass with
      directories := directories
      phase := .inside directory (s.glob directory) }).setLock directory (some (.pass i))) := by
    simp only [Storage.step, h.pass, Option.bind_eq_bind, Option.bind_some, h.locks, if_pos hfree]
  have hglob : s.glob directory = r.2.glob directory := by
    unfold glob
    rw [h.files]
  have hentered : Mirrors i pass directories (.inside directory (r.2.glob directory))
      (Function.update locks directory (some (.pass i))) r ((s.modifyPass i fun pass => { pass with
        directories := directories
        phase := .inside directory (s.glob directory) }).setLock directory (some (.pass i))) := by
    refine ⟨h.rows, h.files, congrArg (fun locks => Function.update locks directory _) h.locks, ?_⟩
    rw [← hglob]
    exact h.modifyPass rfl
  obtain ⟨t, hst, ht⟩ : ∃ t, Alone cfg sha256 i _ t ∧ Mirrors i pass directories (.inside directory []) _
      (sweepDirectory pass r directory) t := alone_files hentered
  have hleave : t.step cfg sha256 (.leaveDirectory i) =
      some ((t.modifyPass i (Pass.move .between)).setLock directory none) := by
    simp only [Storage.step, ht.pass, Option.bind_eq_bind, Option.bind_some]
  have hstart : Alone cfg sha256 i s _ := Alone.single (by simp [passActions]) henter
  have hend : Alone cfg sha256 i t _ := Alone.single (by simp [passActions]) hleave
  refine ⟨_, (hstart.trans hst).trans hend, ht.rows, ht.files, ?_, ht.modifyPass rfl⟩
  show Function.update t.locks directory none = locks
  rw [ht.locks, Function.update_idem, ← hfree, Function.update_eq_self]

theorem alone_directories (hfree : ∀ d ∈ directories, locks d = none)
    (h : Mirrors i pass directories .between locks r s) : ∃ t, Alone cfg sha256 i s t ∧
      Mirrors i pass [] .between locks (directories.foldl (sweepDirectory pass) r) t := by
  induction directories generalizing r s with
  | nil => exact ⟨s, .refl, h⟩
  | cons directory directories ih =>
    obtain ⟨t, hst, ht⟩ : ∃ t, Alone cfg sha256 i s t ∧ Mirrors i pass directories .between locks
        (sweepDirectory pass r directory) t := alone_directory (hfree directory List.mem_cons_self) h
    obtain ⟨u, htu, hu⟩ := ih (fun d hd => hfree d (List.mem_cons_of_mem directory hd)) ht
    exact ⟨u, hst.trans htu, hu⟩

/-- A pass that finds every lock free and is left alone ends as the function does. -/
theorem reconcileOrphans_runs {grace : Time} {dryRun : Bool} (hfree : ∀ d, s.locks d = none)
    (h : s.reconcileOrphans grace dryRun = some (n, t)) : ∃ s' u p,
      s.step cfg sha256 (.startPass grace dryRun) = some s' ∧ Alone cfg sha256 s.passes.nextId s' u ∧
      u.passes.find s.passes.nextId = some p ∧ p.phase = .completed ∧ p.removed = n ∧ u.rows = s.rows ∧
      u.files = t.files := by
  unfold reconcileOrphans at h
  simp only [Option.ite_none_left_eq_some, Option.some.injEq] at h
  obtain ⟨hgrace, hresult⟩ := h
  have hstarted : Mirrors s.passes.nextId (s.newPass grace dryRun) (s.newPass grace dryRun).directories .between s.locks
      (0, s) { s with passes := s.passes.insert (s.newPass grace dryRun) } := by
    refine ⟨rfl, rfl, rfl, ?_⟩
    show (s.passes.insert _).find _ = _
    rw [Table.find_insert, if_pos rfl]
    rfl
  obtain ⟨u, hsu, hu⟩ : ∃ u, Alone cfg sha256 s.passes.nextId _ u ∧ Mirrors s.passes.nextId (s.newPass grace dryRun) []
      .between s.locks _ u := alone_directories (fun d _ => hfree d) hstarted
  have hfinish : u.step cfg sha256 (.finishPass s.passes.nextId) =
      some (u.modifyPass s.passes.nextId (Pass.move .completed)) := by
    simp only [Storage.step, hu.pass, Option.bind_eq_bind, Option.bind_some]
  have hstart : s.step cfg sha256 (.startPass grace dryRun) =
      some { s with passes := s.passes.insert (s.newPass grace dryRun) } := by
    simp only [Storage.step, if_neg hgrace]
  refine ⟨_, _, _, hstart, hsu.trans (Alone.single (by simp [passActions]) hfinish), hu.modifyPass rfl, rfl, ?_, ?_, ?_⟩
  · exact congrArg Prod.fst hresult
  · refine (hu.rows.trans (congrArg (fun r => r.2.rows) hresult)).trans ?_
    have hswept := reconcileOrphans_eq (s := s) (Nat.not_lt.mp hgrace) dryRun
    simp only [reconcileOrphans, if_neg hgrace, hresult, Option.some.injEq, Prod.mk.injEq] at hswept
    rw [hswept.2]
    unfold swept
    split <;> rfl
  · exact hu.files.trans (congrArg (fun r => r.2.files) hresult)

/-! ### A pass among the other processes -/

/-- The pass an action belongs to. -/
def passOf : Action → Option ℕ
  | .enterDirectory i | .checkFile i | .unlinkFile i | .leaveDirectory i | .finishPass i | .crashPass i => some i
  | _ => none

section

variable {a : Action} {p : Pass} {key : String} {f : StoredFile}

theorem abandonUpload_passes {id : ℕ} {run : UploadRun} {phase : UploadPhase} :
    (s.abandonUpload id run phase).passes = s.passes := by
  unfold abandonUpload
  split <;> rfl

theorem abandonUpload_files {id : ℕ} {run : UploadRun} {phase : UploadPhase} :
    (s.abandonUpload id run phase).files = s.files := by
  unfold abandonUpload
  split <;> rfl

/-- Other processes leave a pass where it is. -/
theorem Taken.other_pass (h : Taken cfg sha256 s a t) (hp : s.passes.find i = some p) (ha : passOf a ≠ some i) :
    t.passes.find i = some p := by
  have hmodify : ∀ {j : ℕ} {g : Pass → Pass}, some j ≠ some i → (s.passes.modify j g).find i = some p := by
    intro j g hj
    rw [Table.find_modify, if_neg fun he => hj (congrArg some he)]
    exact hp
  cases h with
  | failUpload | crashUpload =>
    rw [abandonUpload_passes]
    exact hp
  | cleanup =>
    show (ite _ _ _ : Storage).passes.find i = some p
    split <;> exact hp
  | startPass =>
    have hlt := Table.lt_nextId_of_find hp
    show (s.passes.insert _).find i = some p
    rw [Table.find_insert, if_neg (by omega)]
    exact hp
  | enterDirectory | checkFile | leaveDirectory | finishPass | crashInside | crashBetween => exact hmodify ha
  | unlinkFile =>
    show ((ite _ _ _ : Storage).passes.modify _ _).find i = some p
    split <;> exact hmodify ha
  | _ => exact hp

/-- The path was drawn, and its file is not still to be placed. -/
def Past (s : Storage) (key : String) : Prop := s.UploadedBy key fun run => run.phase ≠ .locked

theorem Past.moveUpload (h : s.Past key) {id : ℕ} {run : UploadRun} (hrun : s.uploads.find id = some run)
    {phase : UploadPhase} (hphase : phase ≠ .locked) : (s.moveUpload id phase).Past key :=
  UploadedBy.moveUpload h hrun fun _ => hphase

theorem Past.abandonUpload (h : s.Past key) {id : ℕ} {run : UploadRun} (hrun : s.uploads.find id = some run)
    {phase : UploadPhase} (hphase : phase ≠ .locked) : (s.abandonUpload id run phase).Past key := by
  unfold Storage.abandonUpload
  split <;> exact h.moveUpload hrun hphase

theorem Taken.past (h : Taken cfg sha256 s a t) (hk : s.Past key) : t.Past key := by
  cases h with
  | begun => exact UploadedBy.insert hk _
  | promote hrun | commit hrun | finishUpload hrun | failAfterCommit hrun => exact hk.moveUpload hrun (by simp)
  | failUpload hrun | crashUpload hrun => exact hk.abandonUpload hrun (by simp)
  | @cleanup id run accepted unlinked hrun =>
    have hunlinked : Past (if accepted ∧ unlinked then s.unlink run.key else s) key := by
      split <;> exact hk
    exact hunlinked.moveUpload (show Table.find _ id = some run by split <;> exact hrun) (by simp)
  | unlinkFile =>
    show Past (ite _ _ _ : Storage) key
    split <;> exact hk
  | _ => exact hk

/-- No step rewrites a stored file, or places it a second time. -/
theorem Taken.file (h : Taken cfg sha256 s a t) (hs : s.Sound sha256) (hk : s.Past key) :
    t.files.find key = s.files.find key ∨ t.files.find key = none := by
  have hunlink : ∀ k, (s.unlink k).files.find key = s.files.find key ∨ (s.unlink k).files.find key = none := by
    intro k
    rw [unlink_find]
    split
    · exact .inr rfl
    · exact .inl rfl
  cases h with
  | unlinkCollected => exact hunlink _
  | @promote id run hrun hphase hfree =>
    have hne : run.key ≠ key := fun he => hs.uploadedBy hk hrun he hphase
    refine .inl ?_
    show (s.files.insert _ hfree).find key = _
    rw [Rows.find_insert, if_neg hne]
  | failUpload | crashUpload =>
    rw [abandonUpload_files]
    exact .inl rfl
  | cleanup =>
    show (ite _ _ _ : Storage).files.find key = _ ∨ (ite _ _ _ : Storage).files.find key = none
    split
    · exact hunlink _
    · exact .inl rfl
  | unlinkFile =>
    show (ite _ _ _ : Storage).files.find key = _ ∨ (ite _ _ _ : Storage).files.find key = none
    split
    · exact .inl rfl
    · exact hunlink _
  | _ => exact .inl rfl

/-- The pass has not looked at the file yet. -/
def Awaits (p : Pass) (f : StoredFile) : Prop :=
  p.phase = .crashed ∨ (p.phase ≠ .completed ∧
    (f.library ∈ p.directories ∨ (p.phase.directory = some f.library ∧ f.key ∈ p.phase.keys)))

/-- The file is gone, or the pass that started at `startedAt` is still to look at it. -/
def Doomed (i : ℕ) (grace startedAt : Time) (f : StoredFile) (s : Storage) : Prop :=
  ∃ p, s.passes.find i = some p ∧ (p.dryRun = false ∧ p.grace = grace ∧ p.startedAt = startedAt) ∧
    (s.files.find f.key = none ∨ (s.files.find f.key = some f ∧ Awaits p f))

/-- A step of the pass itself. -/
theorem Taken.own_pass (h : Taken cfg sha256 s a t) (ha : passOf a = some i) {grace startedAt : Time}
    (hnamed : s.Unnamed f.key) (hold : f.modified < startedAt - grace) (hd : Doomed i grace startedAt f s) :
    Doomed i grace startedAt f t := by
  obtain ⟨p, hp, ⟨hreal, hg, hstart⟩, hfile⟩ := hd
  have hmodified : ∀ {g : Pass → Pass}, (s.passes.modify i g).find i = some (g p) := by
    intro g
    rw [Table.find_modify, if_pos rfl, hp]
    rfl
  cases h with
  | @enterDirectory id pass directory rest hpass hphase hdirectories hfree =>
    cases ha
    rw [hp] at hpass
    cases hpass
    refine ⟨_, hmodified, ⟨hreal, hg, hstart⟩, hfile.imp_right fun ⟨hf, hawaits⟩ => ⟨hf, .inr ⟨by simp, ?_⟩⟩⟩
    rcases hawaits with hcrashed | ⟨-, hin | ⟨hin, -⟩⟩
    · rw [hphase] at hcrashed
      cases hcrashed
    · rw [hdirectories] at hin
      rcases List.mem_cons.mp hin with hin | hin
      · refine .inr ⟨congrArg some hin.symm, List.mem_map_of_mem (List.mem_filter.mpr ⟨Rows.mem_of_find hf, ?_⟩)⟩
        simp [hin]
      · exact .inl hin
    · rw [hphase] at hin
      cases hin
  | @checkFile id pass directory key pending hpass hphase =>
    cases ha
    rw [hp] at hpass
    cases hpass
    refine ⟨_, hmodified, ⟨hreal, hg, hstart⟩, hfile.imp_right fun ⟨hf, hawaits⟩ => ⟨hf, ?_⟩⟩
    have horphan : s.isOrphan p f.key = true := by
      rw [isOrphan_of_find hf]
      simp only [isOld, hg, hstart, decide_eq_true_eq, List.all_eq_true]
      exact ⟨hnamed, hold⟩
    rcases hawaits with hcrashed | ⟨-, hin | ⟨hin, hkey⟩⟩
    · rw [hphase] at hcrashed
      cases hcrashed
    · refine .inr ⟨?_, .inl hin⟩
      unfold Pass.move
      dsimp only
      split <;> simp
    · rw [hphase] at hin hkey
      by_cases hk : s.isOrphan p key = true
      · rw [if_pos hk]
        exact .inr ⟨by simp [Pass.move], .inr ⟨hin, hkey⟩⟩
      · rw [if_neg hk]
        refine .inr ⟨by simp [Pass.move], .inr ⟨hin, ?_⟩⟩
        rcases List.mem_cons.mp hkey with rfl | hkey
        · exact absurd horphan hk
        · exact hkey
  | @unlinkFile id pass directory key pending hpass hphase =>
    cases ha
    rw [hp] at hpass
    cases hpass
    rw [hreal, if_neg Bool.false_ne_true]
    refine ⟨_, hmodified, ⟨hreal, hg, hstart⟩, ?_⟩
    show (s.unlink key).files.find f.key = none ∨ ((s.unlink key).files.find f.key = some f ∧ _)
    rw [unlink_find]
    by_cases hk : f.key = key
    · rw [if_pos hk]
      exact .inl rfl
    · rw [if_neg hk]
      refine hfile.imp_right fun ⟨hf, hawaits⟩ => ⟨hf, .inr ⟨by simp, ?_⟩⟩
      rcases hawaits with hcrashed | ⟨-, hin | ⟨hin, hkey⟩⟩
      · rw [hphase] at hcrashed
        cases hcrashed
      · exact .inl hin
      · rw [hphase] at hin hkey
        exact .inr ⟨hin, (List.mem_cons.mp hkey).resolve_left hk⟩
  | @leaveDirectory id pass directory hpass hphase =>
    cases ha
    rw [hp] at hpass
    cases hpass
    refine ⟨_, hmodified, ⟨hreal, hg, hstart⟩, hfile.imp_right fun ⟨hf, hawaits⟩ => ⟨hf, .inr ⟨by simp [Pass.move], ?_⟩⟩⟩
    rcases hawaits with hcrashed | ⟨-, hin | ⟨-, hkey⟩⟩
    · rw [hphase] at hcrashed
      cases hcrashed
    · exact .inl hin
    · rw [hphase] at hkey
      cases hkey
  | @finishPass id pass hpass hphase hdirectories =>
    cases ha
    rw [hp] at hpass
    cases hpass
    refine ⟨_, hmodified, ⟨hreal, hg, hstart⟩, .inl (hfile.resolve_right fun ⟨hf, hawaits⟩ => ?_)⟩
    rcases hawaits with hcrashed | ⟨-, hin | ⟨hin, -⟩⟩
    · rw [hphase] at hcrashed
      cases hcrashed
    · rw [hdirectories] at hin
      cases hin
    · rw [hphase] at hin
      cases hin
  | crashInside | crashBetween =>
    cases ha
    exact ⟨_, hmodified, ⟨hreal, hg, hstart⟩, hfile.imp_right fun ⟨hf, _⟩ => ⟨hf, .inl rfl⟩⟩
  | _ => cases ha

/-- A step of any process. -/
theorem Taken.doomed (h : Taken cfg sha256 s a t) (hs : s.Sound sha256) (hpast : s.Past f.key) {grace startedAt : Time}
    (hnamed : s.Unnamed f.key) (hold : f.modified < startedAt - grace) (hd : Doomed i grace startedAt f s) :
    Doomed i grace startedAt f t := by
  by_cases ha : passOf a = some i
  · exact h.own_pass ha hnamed hold hd
  · obtain ⟨p, hp, hp', hfile⟩ := hd
    refine ⟨p, h.other_pass hp ha, hp', ?_⟩
    rcases h.file hs hpast with hsame | hnone
    · rw [hsame]
      exact hfile
    · exact .inl hnone

/-- A run in which no row names the path. -/
def Unclaimed (cfg : Config) (sha256 : List UInt8 → Digest) (key : String) : Storage → Storage → Prop :=
  Relation.ReflTransGen fun s t =>
    ∃ a, (∀ i, a ≠ .failAfterCommit i) ∧ s.step cfg sha256 a = some t ∧ t.Unnamed key

/-- A real pass that completes has removed every file that was old when it started and that no
row named in the meantime. -/
theorem Sound.completes (h : s.Sound sha256) {grace : Time} {i : ℕ} (hf : f ∈ s.files.list)
    (hold : f.modified + grace < s.now) (hstart : s.step cfg sha256 (.startPass grace false) = some t)
    (hi : i = s.passes.nextId) (hnamed : s.Unnamed f.key) (hrun : Unclaimed cfg sha256 f.key t u)
    (hp : u.passes.find i = some p) (hdone : p.phase = .completed) : u.files.find f.key = none := by
  have hcutoff : f.modified < s.now - grace := Nat.lt_sub_of_add_lt hold
  have hpast : s.Past f.key := (h.placed f hf).mono fun _ hrun => hrun.2
  have hinvariant : u.Sound sha256 ∧ u.Past f.key ∧ u.Unnamed f.key ∧ Doomed i grace s.now f u := by
    clear hp
    have htaken := step_taken hstart
    have hsound := h.step (fun _ => by simp) hstart
    induction hrun with
    | refl =>
      refine ⟨hsound, htaken.past hpast, ?_⟩
      cases htaken with
      | startPass hgrace =>
        refine ⟨hnamed, s.newPass grace false, ?_, ⟨rfl, rfl, rfl⟩, .inr ⟨Rows.find_of_mem hf, .inr ⟨by simp [newPass], ?_⟩⟩⟩
        · show (s.passes.insert _).find i = _
          rw [Table.find_insert, if_pos hi]
        · exact .inl (List.mem_dedup.mpr (List.mem_map_of_mem hf))
    | tail _ hstep ih =>
      obtain ⟨hv, hvpast, hvnamed, hvdoomed⟩ := ih
      obtain ⟨a, ha, hs, hnext⟩ := hstep
      have hnexttaken := step_taken hs
      exact ⟨hv.step ha hs, hnexttaken.past hvpast, hnext, hnexttaken.doomed hv hvpast hvnamed hcutoff hvdoomed⟩
  obtain ⟨-, -, -, q, hq, -, hfile⟩ := hinvariant
  rw [hp] at hq
  cases hq
  refine hfile.resolve_right fun ⟨_, hawaits⟩ => ?_
  rcases hawaits with hcrashed | ⟨hopen, -⟩
  · rw [hdone] at hcrashed
    cases hcrashed
  · exact hopen hdone

/-- A pass unlinks only old files that no row and no upload in its transaction owns. -/
theorem Sound.unlinks (h : s.Sound sha256) (hs : s.step cfg sha256 (.unlinkFile i) = some t) (hf : f ∈ s.files.list)
    (hgone : t.files.find f.key = none) : s.Unnamed f.key ∧
      (∀ j u, s.uploads.find j = some u → u.phase.inTransaction = true → u.key ≠ f.key) ∧
      ∃ p, s.passes.find i = some p ∧ p.dryRun = false ∧ f.modified + p.grace < s.now := by
  have hfind : s.files.find f.key = some f := Rows.find_of_mem hf
  cases step_taken hs with
  | @unlinkFile _ pass directory key pending hpass hphase =>
    have hgone : (if pass.dryRun then s else s.unlink key).files.find f.key = none := hgone
    by_cases hdry : pass.dryRun = true
    · rw [if_pos hdry, hfind] at hgone
      cases hgone
    · rw [if_neg hdry, unlink_find] at hgone
      by_cases hk : f.key = key
      · obtain ⟨hno, hrun⟩ := h.unowned hpass hphase
        have hold := (h.orphaned hpass hphase).2 f (hk ▸ hfind)
        refine ⟨hk ▸ hno, fun j u hu hin => hk ▸ hrun hu hin, pass, hpass, by simpa using hdry, ?_⟩
        exact Nat.lt_of_lt_of_le (Nat.add_lt_of_lt_sub hold) (h.started hpass)
      · rw [if_neg hk, hfind] at hgone
        cases hgone

end

/-! ### Agreement -/

/-- What the rows, the accepted files and the reconciliations of a state promise each other. -/
structure Agrees (cfg : Config) (sha256 : List UInt8 → Digest) (s : Storage) : Prop where
  stored : ∀ c ∈ s.rows.contents.list, s.Holds sha256 c
  unlinks : ∀ i t, s.step cfg sha256 (.unlinkFile i) = some t → ∀ f ∈ s.files.list, t.files.find f.key = none →
    s.Unnamed f.key ∧ (∀ j u, s.uploads.find j = some u → u.phase.inTransaction = true → u.key ≠ f.key) ∧
      ∃ p, s.passes.find i = some p ∧ p.dryRun = false ∧ f.modified + p.grace < s.now
  completes : ∀ grace t u p, s.step cfg sha256 (.startPass grace false) = some t → ∀ f ∈ s.files.list,
    f.modified + grace < s.now → s.Unnamed f.key → Unclaimed cfg sha256 f.key t u →
    u.passes.find s.passes.nextId = some p → p.phase = .completed → u.files.find f.key = none
  counts : ∀ grace, Publications.day ≤ grace → ∃ n t, s.reconcileOrphans grace true = some (n, s) ∧
    s.reconcileOrphans grace false = some (n, t) ∧ t.files.list.length + n = s.files.list.length
  runs : ∀ grace dryRun n t, s.reconcileOrphans grace dryRun = some (n, t) → (∀ d, s.locks d = none) → ∃ s' u p,
    s.step cfg sha256 (.startPass grace dryRun) = some s' ∧ Alone cfg sha256 s.passes.nextId s' u ∧
      u.passes.find s.passes.nextId = some p ∧ p.phase = .completed ∧ p.removed = n ∧ u.rows = s.rows ∧ u.files = t.files

theorem reconcileOrphans_counts {grace : Time} (hgrace : Publications.day ≤ grace) :
    ∃ n t, s.reconcileOrphans grace true = some (n, s) ∧ s.reconcileOrphans grace false = some (n, t) ∧
      t.files.list.length + n = s.files.list.length := by
  have hdry := reconcileOrphans_eq (s := s) hgrace true
  have hreal := reconcileOrphans_eq (s := s) hgrace false
  refine ⟨_, _, hdry, hreal, ?_⟩
  show (s.files.list.filter _).length + _ = _
  rw [List.countP_eq_length_filter, Nat.add_comm]
  simp only [Bool.true_and]
  have hsplit := List.length_eq_length_filter_add (l := s.files.list) (s.isOld (s.newPass grace false))
  rw [hsplit]
  rfl

theorem Sound.agrees (h : s.Sound sha256) : s.Agrees cfg sha256 where
  stored := h.stored
  unlinks _ _ hs _ hf hgone := h.unlinks hs hf hgone
  completes _ _ _ _ hstart _ hf hold hnamed hrun hp hdone := h.completes hf hold hstart rfl hnamed hrun hp hdone
  counts _ hgrace := reconcileOrphans_counts hgrace
  runs _ _ _ _ hresult hfree := reconcileOrphans_runs hfree hresult

theorem Sound.initial : Sound sha256 {} where
  rows := FileLibrary.Sound.initial
  stored := by simp [State.empty]
  upload_key := by simp [Table.find]
  upload_lock := by simp [Table.find]
  pass_lock := by simp [Table.find]
  named := by simp [State.empty]
  collected := by simp [State.empty]
  placed := by simp
  promoted := by simp [Table.find]
  listed := by simp [Table.find]
  orphaned := by simp [Table.find]
  started := by simp [Table.find]

/-- Rows and files agree in every run in which no exception leaves the transaction of an upload
after its commit. -/
theorem agrees_of_reachableBy
    (h : (storageSystem cfg sha256).ReachableBy (fun _ a => ∀ i, a ≠ .failAfterCommit i) s) : s.Agrees cfg sha256 := by
  have hsound : s.Sound sha256 := by
    refine h.invariant (I := fun s => s.Sound sha256) ?_ fun s a t _ hs ha hstep => hs.step ha hstep
    rintro s rfl
    exact .initial
  exact hsound.agrees

/-! ### An upload that fails after its commit -/

def runActions (cfg : Config) (sha256 : List UInt8 → Digest) (s : Storage) (actions : List Action) : Option Storage :=
  actions.foldlM (fun s a => s.step cfg sha256 a) s

def sampleDigest (bytes : List UInt8) : Digest := .ofNat 256 (bytes.foldl (fun n b => 257 * n + b.toNat + 1) 0)

/-- A PDF of five bytes is uploaded and committed. -/
def uploaded : List Action :=
  [ .call sampleEnv (.openLibrary 7 (.department 1) 1),
    .beginUpload sampleEnv 7 1 { name := "a.pdf", size := 5, contentId := 20, documentId := 21, prepared := .ok (5, 0) }
      [37, 80, 68, 70, 45] 0,
    .promote 0,
    .commit sampleEnv 0 ]

theorem reachableBy_runActions {C : Action → Prop} {actions : List Action}
    (h : (storageSystem cfg sha256).ReachableBy (fun _ a => C a) s) (hrun : runActions cfg sha256 s actions = some t)
    (hC : ∀ a ∈ actions, C a) : (storageSystem cfg sha256).ReachableBy (fun _ a => C a) t := by
  induction actions generalizing s with
  | nil =>
    cases hrun
    exact h
  | cons a actions ih =>
    simp only [runActions, List.foldlM_cons, bind_eq_some] at hrun
    obtain ⟨u, hu, hrun⟩ := hrun
    exact ih (h.next (hC a List.mem_cons_self) hu) hrun fun b hb => hC b (List.mem_cons_of_mem a hb)

theorem uploaded_agrees : ∃ s, runActions sampleConfig sampleDigest {} uploaded = some s ∧
    s.rows.contents.list.length = 1 ∧ s.files.list.length = 1 ∧ s.Agrees sampleConfig sampleDigest := by
  have hrun : (runActions sampleConfig sampleDigest {} uploaded).map
      (fun s => (s.rows.contents.list.length, s.files.list.length)) = some (1, 1) := by decide +kernel
  obtain ⟨s, hs, hlengths⟩ := Option.map_eq_some_iff.mp hrun
  obtain ⟨hcontents, hfiles⟩ := Prod.mk.inj hlengths
  refine ⟨s, hs, hcontents, hfiles, agrees_of_reachableBy (reachableBy_runActions (.init rfl) hs fun a ha i => ?_)⟩
  rintro rfl
  simp [uploaded] at ha

/-- The exception takes the file of the committed row with it. -/
theorem failedAfterCommit_not_agrees :
    ¬∀ s, (storageSystem sampleConfig sampleDigest).Reachable s → s.Agrees sampleConfig sampleDigest := by
  intro hall
  have hrun : (runActions sampleConfig sampleDigest {} (uploaded ++ [.failAfterCommit 0, .cleanup 0 true])).map
      (fun s => (s.rows.contents.list.map (·.id), s.files.list)) = some ([20], []) := by decide +kernel
  obtain ⟨s, hs, hlists⟩ := Option.map_eq_some_iff.mp hrun
  obtain ⟨hcontents, hfiles⟩ := Prod.mk.inj hlists
  have hreach : (storageSystem sampleConfig sampleDigest).ReachableBy (fun _ _ => True) s :=
    reachableBy_runActions (.init rfl) hs fun _ _ => trivial
  obtain ⟨c, rest, hc, -, -⟩ := List.map_eq_cons_iff.mp hcontents
  obtain ⟨f, hf, -⟩ := (hall s hreach.reachable).stored c (by rw [hc]; exact List.mem_cons_self)
  have hmem := Rows.mem_of_find hf
  rw [hfiles] at hmem
  cases hmem

end FireDash.FileLibrary.Storage
