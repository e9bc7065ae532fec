import FireDash.Ingestion.Packages
import FireDash.Ingestion.PdfPackages

/-! The accepted files of fire plans and KLGV plans over runs of the services that write them. -/
namespace FireDash.Ingestion.PlanFiles

open Documents (FirePlan KlgvPlan)
open Json (Text text)
open Numerals (Uuid)
open Packages
open Parsers (Bytes)
open PdfPackages (pathName pathParts)
open Snapshots (last)

/-- The stored plans, and the accepted and the staged files. -/
structure Store where
  firePlans : Rows firePlans.id
  klgvPlans : Rows klgvPlans.id
  files : Files

/-- The services that write plans or accepted files; the last two stand for the staging of previews and for the file
library, which keeps its files beside those of the plans. -/
inductive Call where
  | confirmFirePlans (env : Env) (fetched : List FirePlan) (rows : List StagedRow) (aborted : Bool)
  | confirmKlgvPlans (env : Env) (fetched : List KlgvPlan) (rows : List StagedRow) (aborted : Bool)
  | saveFirePlan (plan : FirePlan)
  | saveKlgvPlan (plan : KlgvPlan)
  | deleteFirePlan (id : Uuid) (unlinked : Bool)
  | deleteKlgvPlan (id : Uuid) (unlinked : Bool)
  | stage (staged : Text → Option Bytes)
  | fileLibrary (key : Text) (content : Option Bytes)

/-- `delete_fire_plan`; the file goes after the commit. -/
def deleteFirePlan (s : Store) (id : Uuid) (unlinked : Bool) : Store :=
  match s.firePlans.find id with
  | none => s
  | some plan =>
    { s with
      firePlans := s.firePlans.delete fun p => p.id = id
      files := if unlinked = true then s.files.write (pathName plan.documentKey) none else s.files }

/-- `delete_klgv_plan` -/
def deleteKlgvPlan (s : Store) (id : Uuid) (unlinked : Bool) : Store :=
  match s.klgvPlans.find id with
  | none => s
  | some plan =>
    { s with
      klgvPlans := s.klgvPlans.delete fun p => p.id = id
      files := if unlinked = true then s.files.write plan.path none else s.files }

def Call.run (s : Store) : Call → Store
  | .confirmFirePlans env fetched rows aborted =>
    let (_, plans, files) := confirmDocuments firePlans env fetched rows aborted s.firePlans s.files
    { s with firePlans := plans, files := files }
  | .confirmKlgvPlans env fetched rows aborted =>
    let (_, plans, files) := confirmDocuments klgvPlans env fetched rows aborted s.klgvPlans s.files
    { s with klgvPlans := plans, files := files }
  | .saveFirePlan plan => { s with firePlans := s.firePlans.save plan }
  | .saveKlgvPlan plan => { s with klgvPlans := s.klgvPlans.save plan }
  | .deleteFirePlan id unlinked => PlanFiles.deleteFirePlan s id unlinked
  | .deleteKlgvPlan id unlinked => PlanFiles.deleteKlgvPlan s id unlinked
  | .stage staged => { s with files := { s.files with staged := staged } }
  | .fileLibrary key content => { s with files := s.files.write key content }

/-- A plan that is edited or switched keeps its document. -/
def KeepsDocument {ρ : Type} (m : PlanModel ρ) (plans : Rows m.id) (plan : ρ) : Prop :=
  ∃ p ∈ plans.list, m.id plan = m.id p ∧ m.file plan = m.file p ∧ m.sha256 plan = m.sha256 p

def Call.Allowed (sha256 : Bytes → Text) (s : Store) : Call → Prop
  | .confirmFirePlans env fetched _ _ => env.sha256 = sha256 ∧ Fetched firePlans env s.firePlans fetched
  | .confirmKlgvPlans env fetched _ _ => env.sha256 = sha256 ∧ Fetched klgvPlans env s.klgvPlans fetched
  | .saveFirePlan plan => KeepsDocument firePlans s.firePlans plan
  | .saveKlgvPlan plan => KeepsDocument klgvPlans s.klgvPlans plan
  | .fileLibrary key _ => text "file-libraries/" <+: key
  | _ => True

/-- Runs that start without plans. -/
def system (sha256 : Bytes → Text) : Machine Store Call where
  init s := s.firePlans.list = [] ∧ s.klgvPlans.list = []
  step s call t := call.Allowed sha256 s ∧ t = call.run s

/-- A confirmation that raises, with an approved row that has another document than the plan. -/
def Call.Tears (s : Store) (call : Call) (id : Uuid) : Prop :=
  match call with
  | .confirmKlgvPlans env fetched rows aborted =>
    (∃ e, (confirmDocuments klgvPlans env fetched rows aborted s.klgvPlans s.files).1 = .error e) ∧
      ∃ row ∈ rows, Replaces klgvPlans env (last klgvPlans.key fetched) row (plansKey id)
  | _ => False

/-! ### Keys -/

theorem slash_not_mem_documentKey (u : Uuid) : 47 ∉ documentKey u := by
  intro h
  rcases List.mem_append.mp h with h | h
  · rcases Numerals.mem_str h with hc | ⟨d, hd, hc⟩
    · exact absurd hc (by decide)
    · have hhex : ∀ d < 16, 47 ≠ Json.hexChar d := by decide
      exact hhex d hd hc
  · exact absurd h (by decide)

theorem documentKey_ne_plansKey (u w : Uuid) : documentKey u ≠ plansKey w := by
  intro h
  apply slash_not_mem_documentKey u
  rw [h]
  exact List.mem_append_left _ (by decide)

theorem documentKey_ne_library {u : Uuid} {key : Text} (h : text "file-libraries/" <+: key) : documentKey u ≠ key := by
  rintro rfl
  exact slash_not_mem_documentKey u (h.subset (by decide))

theorem plansKey_ne_library {u : Uuid} {key : Text} (h : text "file-libraries/" <+: key) : plansKey u ≠ key := by
  rintro rfl
  obtain ⟨rest, hrest⟩ := h
  have hhead := congrArg List.head? hrest
  have hlibrary : (text "file-libraries/").head? = some 102 := by decide
  have hplans : (text "plans/").head? = some 112 := by decide
  rw [List.head?_append, plansKey, List.head?_append, hlibrary, hplans] at hhead
  cases hhead

theorem pathName_documentKey (u : Uuid) : pathName (documentKey u) = documentKey u := by
  have hsingle : (documentKey u).splitOn 47 = [documentKey u] := by
    apply List.splitOnP_eq_singleton
    intro c hc
    apply beq_false_of_ne
    rintro rfl
    exact slash_not_mem_documentKey u hc
  have hsuffix : 112 ∈ documentKey u := List.mem_append_right _ (by decide)
  have hnamed : documentKey u ≠ [] ∧ documentKey u ≠ text "." := by
    constructor
    · intro h
      rw [h] at hsuffix
      cases hsuffix
    · intro h
      rw [h] at hsuffix
      exact absurd hsuffix (by decide)
  have hfilter : [documentKey u].filter (fun part => part ≠ [] ∧ part ≠ text ".") = [documentKey u] :=
    List.filter_cons_of_pos (decide_eq_true hnamed)
  rw [pathName, pathParts, hsingle, hfilter]
  rfl

/-! ### Plans and files together -/

section

variable {ρ : Type} {m : PlanModel ρ} {sha256 : Bytes → Text} {T T' : Uuid → Prop} {plans : Rows m.id} {files files' : Files} {env : Env}
  {fetched : List ρ} {rows : List StagedRow}

theorem sound_of_held (h : Held sha256 m T plans files) (hwhole : m.inPlace = false → ∀ u, ¬T u) (hfetched : Fetched m env plans fetched) :
    Sound sha256 T { plans := plans, files := files, existing := last m.key fetched : Work m } := by
  have hmem : ∀ k p, last m.key fetched k = some p → p ∈ plans.list ∧ m.key p = k := by
    intro k p hp
    obtain ⟨hp, hkey⟩ := Snapshots.last_eq_some hp
    exact ⟨(List.mem_filter.mp (hfetched.mem_iff.mp hp)).1, hkey⟩
  refine ⟨h, hwhole, fun k p hp => (hmem k p hp).1, fun k k' p p' hp hp' hid => ?_⟩
  obtain ⟨hp, hkey⟩ := hmem k p hp
  obtain ⟨hp', hkey'⟩ := hmem k' p' hp'
  rw [← hkey, ← hkey', Rows.eq_of_key hp hp' hid]

/-- Plans keep what they have when their files stay. -/
theorem held_frame (h : Held sha256 m T plans files) (hT : ∀ u, T u → T' u)
    (hkept : ∀ p ∈ plans.list, ¬T' (m.id p) → ∀ content, files.accepted (m.file p) = some content → files'.accepted (m.file p) = some content) :
    Held sha256 m T' plans files' := by
  refine ⟨fun p hp hnot => ?_, h.distinct, h.shaped, h.placed⟩
  obtain ⟨content, hcontent, hdigest⟩ := h.backed p hp fun hp => hnot (hT _ hp)
  exact ⟨content, hkept p hp hnot content hcontent, hdigest⟩

theorem held_delete (h : Held sha256 m T plans files) (gone : ρ → Bool)
    (hkept : ∀ p ∈ plans.list, gone p = false → ∀ content, files.accepted (m.file p) = some content → files'.accepted (m.file p) = some content) :
    Held sha256 m T (plans.delete gone) files' := by
  have hold : ∀ p ∈ (plans.delete gone).list, p ∈ plans.list ∧ gone p = false := fun p hp => Rows.mem_delete.mp hp
  refine ⟨fun p hp hT => ?_, fun p hp q hq => h.distinct p (hold p hp).1 q (hold q hq).1, fun p hp => h.shaped p (hold p hp).1,
    fun hplace p hp => h.placed hplace p (hold p hp).1⟩
  obtain ⟨content, hcontent, hdigest⟩ := h.backed p (hold p hp).1 hT
  exact ⟨content, hkept p (hold p hp).1 (hold p hp).2 content hcontent, hdigest⟩

theorem zipIdx_row {e : StagedRow × ℕ} (he : e ∈ rows.zipIdx) : e.1 ∈ rows := by
  obtain ⟨row, i⟩ := e
  exact (List.mem_zipIdx' he).2 ▸ List.getElem_mem _

/-- A confirmation that returns keeps every file; one that raises keeps the plans, and all files but those it replaces in place. -/
theorem confirm_held (rows : List StagedRow) (aborted : Bool) (h : Held env.sha256 m T plans files) (hwhole : m.inPlace = false → ∀ u, ¬T u) (hfetched : Fetched m env plans fetched) :
    ((∃ applied, (confirmDocuments m env fetched rows aborted plans files).1 = .ok applied) ∧
        Held env.sha256 m T (confirmDocuments m env fetched rows aborted plans files).2.1 (confirmDocuments m env fetched rows aborted plans files).2.2 ∨
      (∃ e, (confirmDocuments m env fetched rows aborted plans files).1 = .error e) ∧
        (confirmDocuments m env fetched rows aborted plans files).2.1 = plans) ∧
    (∀ k content, (∀ row ∈ rows, ¬Replaces m env (last m.key fetched) row k) → files.accepted k = some content →
      (confirmDocuments m env fetched rows aborted plans files).2.2.accepted k = some content) ∧
    ∀ k, (∀ u, k ≠ m.createKey u) → (confirmDocuments m env fetched rows aborted plans files).2.2.accepted k = files.accepted k := by
  have hsound := sound_applyRows rows.zipIdx (sound_of_held h hwhole hfetched)
  have hframe : Tx.Frames (Frame m fun k => ∃ row ∈ rows, Replaces m env (last m.key fetched) row k) (Tx.forEach (applyRow m env) rows.zipIdx)
      { plans := plans, files := files, existing := last m.key fetched } :=
    frame_applyRows fun e he k hreplaces => ⟨e.1, zipIdx_row he, hreplaces⟩
  have hfiles : ∀ {w : Work m}, Frame m (fun k => ∃ row ∈ rows, Replaces m env (last m.key fetched) row k)
      { plans := plans, files := files, existing := last m.key fetched } w →
      (∀ k content, (∀ row ∈ rows, ¬Replaces m env (last m.key fetched) row k) → files.accepted k = some content → w.files.accepted k = some content) ∧
      ∀ k, (∀ u, k ≠ m.createKey u) → w.files.accepted k = files.accepted k := by
    intro w hw
    refine ⟨fun k content hk hcontent => hw.kept k content ?_ hcontent, hw.others⟩
    rintro ⟨row, hrow, hreplaces⟩
    exact hk row hrow hreplaces
  unfold confirmDocuments applyDocuments
  cases hrun : Tx.forEach (applyRow m env) rows.zipIdx { plans := plans, files := files, existing := last m.key fetched } with
  | mk result w =>
    cases result with
    | error e => exact ⟨.inr ⟨⟨e, rfl⟩, rfl⟩, hfiles (hframe.of_error hrun)⟩
    | ok u =>
      cases aborted with
      | true => exact ⟨.inr ⟨⟨_, rfl⟩, rfl⟩, hfiles (hframe.of_ok hrun)⟩
      | false => exact ⟨.inl ⟨⟨_, rfl⟩, (hsound.of_ok hrun).held⟩, hfiles (hframe.of_ok hrun)⟩

end

/-! ### Runs -/

section

variable {sha256 : Bytes → Text} {T T' : Uuid → Prop} {s t : Store} {call : Call}

/-- Every fire plan has its file, and every KLGV plan but those in `T`. -/
structure Consistent (sha256 : Bytes → Text) (T : Uuid → Prop) (s : Store) : Prop where
  fire : Held sha256 firePlans (fun _ => False) s.firePlans s.files
  klgv : Held sha256 klgvPlans T s.klgvPlans s.files

theorem Consistent.mono (h : Consistent sha256 T s) (hT : ∀ u, T u → T' u) : Consistent sha256 T' s :=
  ⟨h.fire, held_frame h.klgv hT fun _ _ _ _ hcontent => hcontent⟩

theorem fire_shaped (h : Consistent sha256 T s) {p : FirePlan} (hp : p ∈ s.firePlans.list) : ∃ u, p.documentKey = documentKey u :=
  h.fire.shaped p hp

theorem klgv_placed (h : Consistent sha256 T s) {p : KlgvPlan} (hp : p ∈ s.klgvPlans.list) : p.path = plansKey p.id :=
  h.klgv.placed rfl p hp

/-- A write of one key leaves the plans whose documents are elsewhere. -/
theorem accepted_write {files : Files} {k k' : Text} {content content' : Option Bytes} (hne : k' ≠ k)
    (h : files.accepted k' = content') : (files.write k content).accepted k' = content' := by
  rw [← h]
  exact Function.update_of_ne hne _ _

theorem consistent_deleteFirePlan (h : Consistent sha256 T s) (id : Uuid) (unlinked : Bool) :
    Consistent sha256 T (deleteFirePlan s id unlinked) := by
  unfold deleteFirePlan
  split
  · exact h
  · rename_i plan hplan
    have hmem : plan ∈ s.firePlans.list := Rows.mem_of_find hplan
    have hid : firePlans.id plan = id := Rows.key_of_find hplan
    obtain ⟨u, hu⟩ := fire_shaped h hmem
    have hkept : ∀ k content, k ≠ plan.documentKey → s.files.accepted k = some content →
        (if unlinked = true then s.files.write (pathName plan.documentKey) none else s.files).accepted k = some content := by
      intro k content hne hcontent
      cases unlinked with
      | false => exact hcontent
      | true =>
        rw [if_pos rfl, hu, pathName_documentKey]
        exact accepted_write (hu ▸ hne) hcontent
    constructor
    · refine held_delete h.fire _ fun p hp hstay content hcontent => hkept _ content (fun hsame => ?_) hcontent
      have hsameId : p.id = plan.id := h.fire.distinct p hp plan hmem hsame
      exact of_decide_eq_false hstay (hsameId.trans hid)
    · refine held_frame h.klgv (fun _ hu => hu) fun p hp _ content hcontent => hkept _ content (fun hsame => ?_) hcontent
      have hpath : p.path = plansKey p.id := klgv_placed h hp
      exact documentKey_ne_plansKey u p.id (hu.symm.trans (hsame.symm.trans hpath))

theorem consistent_deleteKlgvPlan (h : Consistent sha256 T s) (id : Uuid) (unlinked : Bool) :
    Consistent sha256 T (deleteKlgvPlan s id unlinked) := by
  unfold deleteKlgvPlan
  split
  · exact h
  · rename_i plan hplan
    have hmem : plan ∈ s.klgvPlans.list := Rows.mem_of_find hplan
    have hid : klgvPlans.id plan = id := Rows.key_of_find hplan
    have hpath : plan.path = plansKey plan.id := klgv_placed h hmem
    have hkept : ∀ k content, k ≠ plan.path → s.files.accepted k = some content →
        (if unlinked = true then s.files.write plan.path none else s.files).accepted k = some content := by
      intro k content hne hcontent
      cases unlinked with
      | false => exact hcontent
      | true => exact accepted_write hne hcontent
    constructor
    · refine held_frame h.fire (fun _ hu => hu) fun p hp _ content hcontent => hkept _ content (fun hsame => ?_) hcontent
      obtain ⟨u, hu⟩ := fire_shaped h hp
      exact documentKey_ne_plansKey u plan.id (hu.symm.trans (hsame.trans hpath))
    · refine held_delete h.klgv _ fun p hp hstay content hcontent => hkept _ content (fun hsame => ?_) hcontent
      have hsameId : p.id = plan.id := h.klgv.distinct p hp plan hmem hsame
      exact of_decide_eq_false hstay (hsameId.trans hid)

/-- Every call keeps the plans and their files together, but for the plans it tears. -/
theorem consistent_run (h : Consistent sha256 T s) (hcall : call.Allowed sha256 s) :
    Consistent sha256 (fun u => T u ∨ call.Tears s u) (call.run s) := by
  cases call with
  | confirmFirePlans env fetched rows aborted =>
    obtain ⟨rfl, hfetched⟩ := hcall
    obtain ⟨hresult, hkept, hothers⟩ := confirm_held rows aborted h.fire (fun _ _ => id) hfetched
    have hnever : ∀ k, ∀ row ∈ rows, ¬Replaces firePlans env (last firePlans.key fetched) row k := by
      rintro k row - ⟨hplace, -⟩
      cases hplace
    constructor
    · rcases hresult with ⟨-, hheld⟩ | ⟨-, hplans⟩
      · exact hheld
      · show Held _ firePlans _ (confirmDocuments firePlans env fetched rows aborted s.firePlans s.files).2.1 _
        rw [hplans]
        exact held_frame h.fire (fun _ hu => hu) fun p _ _ content hcontent => hkept _ content (hnever _) hcontent
    · exact held_frame h.klgv (fun _ hu => .inl hu) fun p _ _ content hcontent => hkept _ content (hnever _) hcontent
  | confirmKlgvPlans env fetched rows aborted =>
    obtain ⟨rfl, hfetched⟩ := hcall
    obtain ⟨hresult, hkept, hothers⟩ := confirm_held rows aborted h.klgv nofun hfetched
    constructor
    · refine held_frame h.fire (fun _ hu => hu) fun p hp _ content hcontent => ?_
      obtain ⟨u, hu⟩ := fire_shaped h hp
      show (confirmDocuments klgvPlans env fetched rows aborted s.klgvPlans s.files).2.2.accepted p.documentKey = _
      rw [hothers p.documentKey fun w hw => documentKey_ne_plansKey u w (hu.symm.trans hw)]
      exact hcontent
    · rcases hresult with ⟨-, hheld⟩ | ⟨herror, hplans⟩
      · exact held_frame hheld (fun _ hu => .inl hu) fun _ _ _ _ hcontent => hcontent
      · show Held _ klgvPlans _ (confirmDocuments klgvPlans env fetched rows aborted s.klgvPlans s.files).2.1 _
        rw [hplans]
        refine held_frame h.klgv (fun _ hu => .inl hu) fun p hp hnot content hcontent => hkept _ content (fun row hrow hreplaces => ?_) hcontent
        apply hnot
        refine .inr ⟨herror, row, hrow, ?_⟩
        rw [show klgvPlans.file p = plansKey p.id from klgv_placed h hp] at hreplaces
        exact hreplaces
  | saveFirePlan plan =>
    obtain ⟨p, hp, hkeeps⟩ := hcall
    exact Consistent.mono ⟨h.fire.save hp hkeeps, h.klgv⟩ fun _ => .inl
  | saveKlgvPlan plan =>
    obtain ⟨p, hp, hkeeps⟩ := hcall
    exact Consistent.mono ⟨h.fire, h.klgv.save hp hkeeps⟩ fun _ => .inl
  | deleteFirePlan id unlinked => exact (consistent_deleteFirePlan h id unlinked).mono fun _ => .inl
  | deleteKlgvPlan id unlinked => exact (consistent_deleteKlgvPlan h id unlinked).mono fun _ => .inl
  | stage staged =>
    have hsame : Consistent sha256 T (Call.run s (.stage staged)) :=
      ⟨held_frame h.fire (fun _ hu => hu) fun _ _ _ _ hcontent => hcontent, held_frame h.klgv (fun _ hu => hu) fun _ _ _ _ hcontent => hcontent⟩
    exact hsame.mono fun _ => .inl
  | fileLibrary key content =>
    have hsame : Consistent sha256 T (Call.run s (.fileLibrary key content)) := by
      constructor
      · refine held_frame h.fire (fun _ hu => hu) fun p hp _ c hc => accepted_write ?_ hc
        obtain ⟨u, hu⟩ := fire_shaped h hp
        rw [show firePlans.file p = documentKey u from hu]
        exact documentKey_ne_library hcall
      · refine held_frame h.klgv (fun _ hu => hu) fun p hp _ c hc => accepted_write ?_ hc
        rw [show klgvPlans.file p = plansKey p.id from klgv_placed h hp]
        exact plansKey_ne_library hcall
    exact hsame.mono fun _ => .inl

theorem consistent_of_run {trace : List (Store × Call × Store)} (h : (system sha256).Run s trace t) :
    Consistent sha256 (fun u => ∃ e ∈ trace, e.2.1.Tears e.1 u) t := by
  induction h with
  | start hinit =>
    obtain ⟨hfirePlans, hklgvPlans⟩ := hinit
    have hfire : ∀ p ∈ s.firePlans.list, False := by
      intro p hp
      rw [hfirePlans] at hp
      cases hp
    have hklgv : ∀ p ∈ s.klgvPlans.list, False := by
      intro p hp
      rw [hklgvPlans] at hp
      cases hp
    exact ⟨⟨fun p hp => (hfire p hp).elim, fun p hp => (hfire p hp).elim, fun p hp => (hfire p hp).elim, fun _ p hp => (hfire p hp).elim⟩,
      fun p hp => (hklgv p hp).elim, fun p hp => (hklgv p hp).elim, fun p hp => (hklgv p hp).elim, fun _ p hp => (hklgv p hp).elim⟩
  | @next u v trace call _ hstep ih =>
    obtain ⟨hallowed, rfl⟩ := hstep
    refine (consistent_run ih hallowed).mono ?_
    rintro id (⟨e, he, htears⟩ | htears)
    · exact ⟨e, List.mem_append_left _ he, htears⟩
    · exact ⟨_, List.mem_append_right _ List.mem_cons_self, htears⟩

/-- Whatever is confirmed, edited or deleted, and wherever it fails, every fire plan has an accepted file of its own, with the
digest it records. -/
theorem fire_plans_keep_their_files (h : (system sha256).Reachable t) :
    (∀ p ∈ t.firePlans.list, Backed sha256 firePlans t.files p) ∧
      ∀ p ∈ t.firePlans.list, ∀ q ∈ t.firePlans.list, pathName p.documentKey = pathName q.documentKey → p = q := by
  obtain ⟨s, trace, hrun⟩ := h
  have hheld := (consistent_of_run hrun).fire
  constructor
  · intro p hp
    exact hheld.backed p hp id
  · intro p hp q hq hsame
    obtain ⟨u, hu⟩ := hheld.shaped p hp
    obtain ⟨w, hw⟩ := hheld.shaped q hq
    change p.documentKey = documentKey u at hu
    change q.documentKey = documentKey w at hw
    rw [hu, hw, pathName_documentKey, pathName_documentKey, ← hu, ← hw] at hsame
    have hid : p.id = q.id := hheld.distinct p hp q hq hsame
    exact Rows.eq_of_key hp hq hid

/-- A KLGV plan has its accepted file unless a confirmation that was to replace it failed: the file is written in place, and the
plan goes back to the document it had. -/
theorem lost_klgv_plan_was_torn {trace : List (Store × Call × Store)} (h : (system sha256).Run s trace t) {p : KlgvPlan}
    (hp : p ∈ t.klgvPlans.list) (hlost : ¬Backed sha256 klgvPlans t.files p) : ∃ e ∈ trace, e.2.1.Tears e.1 p.id := by
  by_contra hnone
  exact hlost ((consistent_of_run h).klgv.backed p hp hnone)

end

/-! ### A school whose plan is replaced -/

def sampleDigest (content : Bytes) : Text := content.map UInt8.toNat

def sampleRow (content : Bytes) : StagedRow :=
  { Baselines.schoolRow with
    sanitizedPdfSha256 := sampleDigest content
    sourcePdfSha256 := sampleDigest content
    sanitizedStagingKey := some (text "a.pdf") }

def sampleEnv : Env where
  sha256 := sampleDigest
  department := 1
  now := 1
  newId _ := 7
  decisions _ := some .approved
  fault _ := none
  rejected _ := false

def sampleStaged (content : Bytes) (key : Text) : Option Bytes := if key = text "a.pdf" then some content else none

def emptyStore : Store where
  firePlans := {}
  klgvPlans := {}
  files := ⟨fun _ => none, fun _ => none⟩

/-- A file is staged and imported. -/
def imported : Store := (Call.stage (sampleStaged [1])).run emptyStore

def importedFire : Store := (Call.confirmFirePlans sampleEnv [] [sampleRow [1]] false).run imported

def importedKlgv : Store := (Call.confirmKlgvPlans sampleEnv [] [sampleRow [1]] false).run imported

/-- Another file is staged. -/
def restaged : Store := (Call.stage (sampleStaged [2])).run importedKlgv

/-- Its import fails when it commits. -/
def failed : Store := (Call.confirmKlgvPlans sampleEnv importedKlgv.klgvPlans.list [sampleRow [2]] true).run restaged

theorem fetched_nil {ρ : Type} {m : PlanModel ρ} {plans : Rows m.id} (h : plans.list = []) : Fetched m sampleEnv plans [] := by
  unfold Fetched
  rw [h, List.filter_nil]

theorem run_imported : (system sampleDigest).Run emptyStore [(emptyStore, .stage (sampleStaged [1]), imported)] imported :=
  (Machine.Run.start (M := system sampleDigest) ⟨rfl, rfl⟩).next ⟨trivial, rfl⟩

/-- A created fire plan and its file. -/
theorem imported_fire_plan_backed : ∃ p ∈ importedFire.firePlans.list, Backed sampleDigest firePlans importedFire.files p := by
  have hstep : (system sampleDigest).step imported (.confirmFirePlans sampleEnv [] [sampleRow [1]] false) importedFire :=
    ⟨⟨rfl, fetched_nil rfl⟩, rfl⟩
  have hreachable : (system sampleDigest).Reachable importedFire := ⟨_, _, run_imported.next hstep⟩
  have hcreated : importedFire.firePlans.list.length = 1 := by decide +kernel
  obtain ⟨p, hp⟩ := List.exists_mem_of_length_pos (by rw [hcreated]; decide)
  exact ⟨p, hp, (fire_plans_keep_their_files hreachable).1 p hp⟩

def samplePlan : KlgvPlan := createKlgvPlan (sampleRow [1]).toRow 1 7 (plansKey 7) 1

/-- The file of the failed import has taken the place of the one the plan records. -/
theorem failed_import_tears : failed.klgvPlans.list = [samplePlan] ∧ samplePlan.sha256 = [1] ∧
    failed.files.accepted samplePlan.path = some [2] ∧ ∃ s, ∃ call : Call, call.Tears s samplePlan.id := by
  have himport : (system sampleDigest).step imported (.confirmKlgvPlans sampleEnv [] [sampleRow [1]] false) importedKlgv :=
    ⟨⟨rfl, fetched_nil rfl⟩, rfl⟩
  have hstage : (system sampleDigest).step importedKlgv (.stage (sampleStaged [2])) restaged := ⟨trivial, rfl⟩
  have hall : importedKlgv.klgvPlans.list = importedKlgv.klgvPlans.list.filter fun p => klgvPlans.department p = sampleEnv.department := by
    decide +kernel
  have hfetched : Fetched klgvPlans sampleEnv restaged.klgvPlans importedKlgv.klgvPlans.list := .of_eq hall
  have hfail : (system sampleDigest).step restaged (.confirmKlgvPlans sampleEnv importedKlgv.klgvPlans.list [sampleRow [2]] true) failed :=
    ⟨⟨rfl, hfetched⟩, rfl⟩
  have hplans : failed.klgvPlans.list = [samplePlan] := by decide +kernel
  have hfile : failed.files.accepted samplePlan.path = some [2] := by decide +kernel
  have hlost : ¬Backed sampleDigest klgvPlans failed.files samplePlan := by
    rintro ⟨content, hcontent, hdigest⟩
    rw [show klgvPlans.file samplePlan = samplePlan.path from rfl, hfile] at hcontent
    cases hcontent
    exact absurd hdigest (by decide)
  have hmem : samplePlan ∈ failed.klgvPlans.list := by
    rw [hplans]
    exact List.mem_cons_self
  obtain ⟨e, -, htears⟩ := lost_klgv_plan_was_torn (((run_imported.next himport).next hstage).next hfail) hmem hlost
  exact ⟨hplans, rfl, hfile, _, _, htears⟩

end FireDash.Ingestion.PlanFiles
