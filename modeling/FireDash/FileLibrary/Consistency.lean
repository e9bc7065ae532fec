import FireDash.FileLibrary.Locations
import FireDash.Lib.Machine

/-! The invariant of the library rows over every sequence of calls: the entries form a
forest in their libraries, and each usage counter is the sum of what is referenced. -/
namespace FireDash.FileLibrary

open Publications (Actor Content)

/-- The library, content and entry rows are the same. -/
def SameRows (s t : State) : Prop :=
  t.libraries = s.libraries ∧ t.contents = s.contents ∧ t.entries = s.entries

instance : IsPreorder State SameRows where
  refl _ := ⟨rfl, rfl, rfl⟩
  trans _ _ _ h h' := ⟨h'.1.trans h.1, h'.2.1.trans h.2.1, h'.2.2.trans h.2.2⟩

/-- Relations to which writes of access rows do not matter. -/
class AccessKeeping (F : State → State → Prop) : Prop extends IsPreorder State F where
  accesses (s : State) (accesses : Table TemporaryStationAccess) : F s { s with accesses := accesses }

/-- Relations to which writes of access and quota rows do not matter. -/
class Bookkeeping (F : State → State → Prop) : Prop extends IsPreorder State F where
  accesses (s : State) (accesses : Table TemporaryStationAccess) : F s { s with accesses := accesses }
  quotas (s : State) (quotas : Rows DepartmentQuotaPolicy.department) : F s { s with quotas := quotas }

instance : Bookkeeping SameRows where
  accesses _ _ := ⟨rfl, rfl, rfl⟩
  quotas _ _ := ⟨rfl, rfl, rfl⟩

instance accessKeepingOfBookkeeping {F : State → State → Prop} [Bookkeeping F] : AccessKeeping F where
  accesses := Bookkeeping.accesses

structure Consistent (cfg : Config) (s : State) : Prop where
  tree : Tree cfg s.entries
  owned : ∀ e ∈ s.entries.list, ∃ l, s.libraries.find e.library = some l
  content_row : ∀ e ∈ s.entries.list, ∀ c, e.content = some c →
    ∃ k, s.contents.find c = some k ∧ k.library = e.library
  usage : ∀ l ∈ s.libraries.list, l.usageBytes = s.referencedBytes l.id

section

variable {cfg : Config} {env : Env} {actor : Actor} {s t : State} {e e' : Entry} {library : Library}
  {α : Type}

theorem Consistent.of_same (h : Consistent cfg s) (ht : SameRows s t) : Consistent cfg t := by
  obtain ⟨hl, hc, he⟩ := ht
  obtain ⟨tree, owned, content_row, usage⟩ := h
  refine ⟨he ▸ tree, ?_, ?_, ?_⟩
  · rw [he, hl]
    exact owned
  · rw [he, hc]
    exact content_row
  · have hbytes : ∀ i, t.referencedBytes i = s.referencedBytes i := by
      intro i
      simp only [State.referencedBytes, State.sizeBytes, State.contentOf, he, hc]
    rw [hl]
    intro l hm
    rw [hbytes]
    exact usage l hm

/-! ### What the helpers leave alone -/

variable {F : State → State → Prop} [AccessKeeping F]

theorem frames_revokeAccess (id : ℕ) (reason : String) : Tx.Frames F (revokeAccess env id reason) s :=
  AccessKeeping.accesses s _

theorem frames_activeTemporaryAccess : Tx.Frames F (activeTemporaryAccess env actor) s := by
  unfold activeTemporaryAccess
  apply Tx.Frames.toAtomic
  rw [Tx.frames_get_bind]
  cases s.openAccess actor with
  | none => exact Tx.frames_pure _
  | some found =>
    obtain ⟨id, access⟩ := found
    dsimp only
    split_ifs
    · exact (frames_revokeAccess id _).bind fun _ _ _ => Tx.frames_pure _
    · exact Tx.frames_pure _
    · exact (frames_revokeAccess id _).bind fun _ _ _ => Tx.frames_pure _

theorem frames_revokeTemporaryAccess (reason : String) :
    Tx.Frames F (revokeTemporaryAccess env actor reason) s := by
  unfold revokeTemporaryAccess
  apply Tx.Frames.toAtomic
  refine frames_activeTemporaryAccess.bind fun active t _ => ?_
  cases active with
  | none => exact (Tx.frames_pure ()).bind fun _ _ _ => Tx.frames_pure _
  | some found => exact (frames_revokeAccess found.1 reason).bind fun _ _ _ => Tx.frames_pure _

theorem frames_requireLibraryAccess (permission : Permission) :
    Tx.Frames F (requireLibraryAccess env actor library permission) s := by
  unfold requireLibraryAccess
  cases requireLibrary env actor library.owner with
  | ok _ => exact Tx.frames_pure _
  | error e =>
    dsimp only
    split
    · exact Tx.frames_ofExcept (.error e)
    · exact Tx.frames_ofExcept (.error e)
    · refine frames_activeTemporaryAccess.bind fun active t _ => ?_
      cases active with
      | none => exact Tx.frames_ofExcept (.error _)
      | some found => exact (Tx.frames_ensure _ _).bind fun _ _ _ => Tx.frames_pure _

theorem frames_lockScope : Tx.Frames SameRows (lockScope library) s := by
  unfold lockScope
  rw [Tx.frames_get_bind]
  split
  · exact Tx.frames_pure ()
  · exact ⟨rfl, rfl, rfl⟩

theorem frames_getLibrary (id : ℕ) : Tx.Frames F (getLibrary id) s :=
  Tx.frames_get_bind.mpr (Tx.frames_require _ _)

theorem frames_publicationCall (x : Publications.Env → Publications.Service α) :
    Tx.Frames SameRows (publicationCall env x) s := by
  unfold Tx.Frames Tx.wp publicationCall
  cases x (env.at s) s.publications with
  | mk r p => cases r <;> exact ⟨rfl, rfl, rfl⟩

theorem frames_quotaPolicy {F : State → State → Prop} [Bookkeeping F] (department : Publications.DepartmentId) :
    Tx.Frames F (quotaPolicy cfg department) s := by
  unfold quotaPolicy
  rw [Tx.frames_get_bind]
  split
  · exact Tx.frames_pure _
  · refine (Tx.frames_require _ _).bind fun quotas t _ => ?_
    have hwrite : Tx.Frames F (Tx.modify fun s => { s with quotas := quotas } : Service Unit) t :=
      Bookkeeping.quotas t quotas
    exact hwrite.bind fun _ _ _ => Tx.frames_pure _

theorem frames_quotaBytes {F : State → State → Prop} [Bookkeeping F] : Tx.Frames F (quotaBytes cfg library) s := by
  unfold quotaBytes
  refine (frames_quotaPolicy _).bind fun policy t _ => ?_
  split <;> exact Tx.frames_pure _

theorem frames_endDepartmentMutation (owner : Publications.LibraryOwner) :
    Tx.Frames F (endDepartmentMutation env actor owner) s := by
  cases owner with
  | department _ => exact (frames_revokeTemporaryAccess _).bind fun _ _ _ => Tx.frames_pure ()
  | station _ => exact Tx.frames_pure ()

/-- The locked library is the stored row. -/
theorem wp_lockedLibrary (libraryId : ℕ) (permission : Permission) :
    Tx.wp (lockedLibrary env actor libraryId permission)
      (fun r t => SameRows s t ∧ s.libraries.find libraryId = some r.1) (fun _ t => SameRows s t) s := by
  unfold lockedLibrary
  rw [Tx.wp_bind]
  refine Tx.wp_mono (frames_getLibrary libraryId) (fun preview s₁ h₁ => ?_) (fun _ _ h => h)
  rw [Tx.wp_bind]
  refine Tx.wp_mono (frames_requireLibraryAccess permission) (fun _ s₂ h₂ => ?_) (fun _ _ h => trans_of SameRows h₁ h)
  have h₂ := trans_of SameRows h₁ h₂
  rw [Tx.wp_bind]
  refine Tx.wp_mono frames_lockScope (fun _ s₃ h₃ => ?_) (fun _ _ h => trans_of SameRows h₂ h)
  have h₃ := trans_of SameRows h₂ h₃
  simp only [getLibrary, Tx.wp_bind, Tx.wp_get, Tx.wp_require]
  refine ⟨fun found hfound => ?_, fun _ => h₃⟩
  rw [h₃.1] at hfound
  refine Tx.wp_mono (frames_requireLibraryAccess permission) (fun _ t h => ?_) (fun _ _ h => trans_of SameRows h₃ h)
  exact ⟨trans_of SameRows h₃ h, hfound⟩

/-- `changed` writes the library row, and no other library, content or entry row. -/
theorem wp_changed :
    Tx.wp (changed cfg env actor library)
      (fun _ t => t.libraries = s.libraries.save { library with sourceRevision := library.sourceRevision + 1 } ∧
        t.contents = s.contents ∧ t.entries = s.entries) (fun _ _ => True) s := by
  unfold changed saveLibrary
  simp only [Tx.wp_bind, Tx.wp_ensure, Tx.wp_modify]
  refine ⟨fun _ => ?_, fun _ => trivial⟩
  refine Tx.wp_mono (frames_publicationCall _) (fun _ t ht => ?_) (fun _ _ _ => trivial)
  refine Tx.wp_mono (frames_endDepartmentMutation (F := SameRows) _) (fun _ u hu => ?_) (fun _ _ _ => trivial)
  exact trans_of SameRows ht hu

/-! ### Accounting -/

theorem State.referencedBytes_nonneg (s : State) (i : ℕ) : 0 ≤ s.referencedBytes i := by
  apply Rows.sum_nonneg
  intro e _
  unfold sizeBytes
  split_ifs
  · cases s.contentOf e <;> simp
  · exact le_refl 0

/-- The rows after a mutation of one library, whose row is rewritten. -/
theorem Consistent.update (h : Consistent cfg s) {row : Library}
    (hid : row.id = library.id) (hlib : t.libraries = s.libraries.save row) (htree : Tree cfg t.entries)
    (howned : ∀ e ∈ t.entries.list, ∃ l, s.libraries.find e.library = some l)
    (hcontent : ∀ e ∈ t.entries.list, ∀ c, e.content = some c →
      ∃ k, t.contents.find c = some k ∧ k.library = e.library)
    (husage : row.usageBytes = t.referencedBytes library.id)
    (hother : ∀ i, i ≠ library.id → t.referencedBytes i = s.referencedBytes i) : Consistent cfg t := by
  refine ⟨htree, ?_, hcontent, ?_⟩
  · intro e he
    obtain ⟨l, hfind⟩ := howned e he
    rw [hlib, Rows.find_save, hfind]
    by_cases hi : row.id = e.library
    · exact ⟨row, by rw [if_pos hi]; rfl⟩
    · exact ⟨l, if_neg hi⟩
  · intro l hm
    rw [hlib, Rows.mem_save, hid] at hm
    rcases hm with ⟨hm, hk⟩ | ⟨rfl, -⟩
    · rw [hother l.id hk]
      exact h.usage l hm
    · rw [husage, hid]

/-- What an entry contributes to the bytes of a library. -/
def State.contribution (s : State) (i : ℕ) (e : Entry) : ℤ := if e.library = i then s.sizeBytes e else 0

theorem Consistent.contribution_congr (h : Consistent cfg s)
    (hc : ∀ c k, s.contents.find c = some k → t.contents.find c = some k) (he : e ∈ s.entries.list) (i : ℕ) :
    t.contribution i e = s.contribution i e := by
  unfold State.contribution State.sizeBytes State.contentOf
  cases hec : e.content with
  | none => rfl
  | some c =>
    obtain ⟨k, hk, -⟩ := h.content_row e he c hec
    simp only [Option.bind_some, hc c k hk, hk]

theorem Consistent.referencedBytes_insert (h : Consistent cfg s) (hn : s.entries.find e.id = none)
    (hc : ∀ c k, s.contents.find c = some k → t.contents.find c = some k) (ht : t.entries = s.entries.insert e hn)
    (i : ℕ) : t.referencedBytes i = s.referencedBytes i + t.contribution i e := by
  have hsum : t.entries.sum (t.contribution i) = s.entries.sum (t.contribution i) + t.contribution i e := by
    rw [ht, Rows.sum_insert]
  have hold : s.entries.sum (t.contribution i) = s.entries.sum (s.contribution i) :=
    Rows.sum_congr fun a ha => h.contribution_congr hc ha i
  rw [hold] at hsum
  exact hsum

theorem Consistent.referencedBytes_save (h : Consistent cfg s) (he : s.entries.find e.id = some e')
    (hc : ∀ c k, s.contents.find c = some k → t.contents.find c = some k) (ht : t.entries = s.entries.save e)
    (i : ℕ) : t.referencedBytes i = s.referencedBytes i - s.contribution i e' + t.contribution i e := by
  have hsum : t.entries.sum (t.contribution i) =
      s.entries.sum (t.contribution i) - t.contribution i e' + t.contribution i e := by
    rw [ht, Rows.sum_save he]
  have hold : s.entries.sum (t.contribution i) = s.entries.sum (s.contribution i) :=
    Rows.sum_congr fun a ha => h.contribution_congr hc ha i
  rw [hold, h.contribution_congr hc (Rows.mem_of_find he)] at hsum
  exact hsum

theorem State.referencedBytes_delete {q : Entry → Bool} (hc : t.contents = s.contents)
    (ht : t.entries = s.entries.delete q) (i : ℕ) :
    t.referencedBytes i = s.referencedBytes i - ((s.entries.list.filter q).map (s.contribution i)).sum := by
  have hcontribution : t.contribution i = s.contribution i := by
    funext e
    unfold contribution sizeBytes contentOf
    rw [hc]
  have hsum : t.entries.sum (t.contribution i) =
      s.entries.sum (s.contribution i) - ((s.entries.list.filter q).map (s.contribution i)).sum := by
    rw [ht, hcontribution, Rows.sum_delete]
  exact hsum

end

end FireDash.FileLibrary
