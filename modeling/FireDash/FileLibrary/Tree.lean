import FireDash.FileLibrary.Services

/-! The forest the entries of the libraries form: what inserting, saving and deleting
entries does to it, and what the location checks and the searches find out about it. -/
namespace FireDash.FileLibrary

/-- Siblings of one library with the same image of their name are one entry. -/
def Distinct (map : String → String) (t : Rows Entry.id) : Prop :=
  ∀ e ∈ t.list, ∀ f ∈ t.list, e.library = f.library → e.parent = f.parent → map e.name = map f.name → e = f

/-- Every parent is a folder of the same library, no folder is too deep, and sibling names
are unique under both case mappings. -/
structure Tree (cfg : Config) (t : Rows Entry.id) : Prop where
  parent_folder : ∀ e ∈ t.list, ∀ p, e.parent = some p →
    ∃ f, t.find p = some f ∧ f.library = e.library ∧ f.isFolder = true
  depth : ∀ e ∈ t.list, ∃ n, (entryLinks t).Depth e.id n ∧ (e.isFolder = true → n ≤ maxFolderDepth)
  upper : Distinct cfg.upper t
  lower : Distinct cfg.lower t

/-- A location of a library below the given number of folders. -/
def Located (t : Rows Entry.id) (library : ℕ) : Option ℕ → ℕ → Prop
  | none, d => d = 0
  | some p, d => ∃ f, t.find p = some f ∧ f.library = library ∧ f.isFolder = true ∧ (entryLinks t).Depth p d

/-- No sibling at the location of an entry, apart from its own row, has the same image of the name. -/
def Fresh (map : String → String) (t : Rows Entry.id) (e : Entry) : Prop :=
  ∀ f ∈ t.list, f.id ≠ e.id → f.library = e.library → f.parent = e.parent → map f.name ≠ map e.name

section

variable {cfg : Config} {t : Rows Entry.id} {e e' f : Entry} {d n p k : ℕ} {map : String → String}

theorem entryLinks_of_find (h : t.find k = some e) : entryLinks t k = some e.parent := by
  unfold entryLinks
  rw [h]
  rfl

theorem entryLinks_eq_some {parent : Option ℕ} (h : entryLinks t k = some parent) :
    ∃ e, t.find k = some e ∧ e.parent = parent :=
  Option.map_eq_some_iff.mp h

theorem entryLinks_eq_none : entryLinks t k = none ↔ t.find k = none := Option.map_eq_none_iff

theorem Distinct.insert (h : Distinct map t) (hn : t.find e.id = none) (hf : Fresh map t e) :
    Distinct map (t.insert e hn) := by
  have hne : ∀ a ∈ t.list, a.id ≠ e.id := Rows.find_eq_none.mp hn
  intro a ha b hb hl hp hm
  rw [Rows.mem_insert] at ha hb
  rcases ha with ha | rfl
  · rcases hb with hb | rfl
    · exact h a ha b hb hl hp hm
    · exact absurd hm (hf a ha (hne a ha) hl hp)
  · rcases hb with hb | rfl
    · exact absurd hm.symm (hf b hb (hne b hb) hl.symm hp.symm)
    · rfl

theorem Distinct.save (h : Distinct map t) (hf : Fresh map t e) : Distinct map (t.save e) := by
  intro a ha b hb hl hp hm
  rw [Rows.mem_save] at ha hb
  rcases ha with ⟨ha, hka⟩ | ⟨rfl, -⟩
  · rcases hb with ⟨hb, -⟩ | ⟨rfl, -⟩
    · exact h a ha b hb hl hp hm
    · exact absurd hm (hf a ha hka hl hp)
  · rcases hb with ⟨hb, hkb⟩ | ⟨rfl, -⟩
    · exact absurd hm.symm (hf b hb hkb hl.symm hp.symm)
    · rfl

theorem Distinct.delete (h : Distinct map t) (q : Entry → Bool) : Distinct map (t.delete q) := by
  intro a ha b hb hl hp hm
  exact h a (Rows.mem_delete.mp ha).1 b (Rows.mem_delete.mp hb).1 hl hp hm

/-- An entry is one level below its location. -/
theorem Located.depth_below {Q : Links ℕ} {library : ℕ} {parent : Option ℕ} (h : Located t library parent d)
    (hQ : ∀ p, parent = some p → (entryLinks t).Depth p d → Q.Depth p d) (hk : Q k = some parent) :
    Q.Depth k (d + 1) := by
  cases parent with
  | none =>
    obtain rfl : d = 0 := h
    exact .root hk
  | some p =>
    obtain ⟨f, -, -, -, hd⟩ := h
    exact .child hk (hQ p rfl hd)

theorem Tree.empty (ht : t.list = []) : Tree cfg t where
  parent_folder := by simp [ht]
  depth := by simp [ht]
  upper := by simp [Distinct, ht]
  lower := by simp [Distinct, ht]

theorem Tree.insert (h : Tree cfg t) (hn : t.find e.id = none) (hp : Located t e.library e.parent d)
    (hd : e.isFolder = true → d + 1 ≤ maxFolderDepth) (hu : Fresh cfg.upper t e) (hl : Fresh cfg.lower t e) :
    Tree cfg (t.insert e hn) := by
  have hkeep : ∀ k, k ≠ e.id → entryLinks (t.insert e hn) k = entryLinks t k := by
    intro k hk
    unfold entryLinks
    rw [Rows.find_insert, if_neg hk.symm]
  have hleaf : entryLinks t e.id = none := entryLinks_eq_none.mpr hn
  have hfind : ∀ p f, t.find p = some f → (t.insert e hn).find p = some f := by
    intro p f hf
    rw [Rows.find_insert, if_neg, hf]
    rintro rfl
    rw [hn] at hf
    cases hf
  refine ⟨?_, ?_, h.upper.insert hn hu, h.lower.insert hn hl⟩
  · intro a ha p hap
    rw [Rows.mem_insert] at ha
    rcases ha with ha | rfl
    · obtain ⟨f, hf, hrest⟩ := h.parent_folder a ha p hap
      exact ⟨f, hfind p f hf, hrest⟩
    · rw [hap] at hp
      obtain ⟨f, hf, hlib, hfolder, -⟩ := hp
      exact ⟨f, hfind p f hf, hlib, hfolder⟩
  · intro a ha
    rw [Rows.mem_insert] at ha
    rcases ha with ha | rfl
    · obtain ⟨n, hn', hb⟩ := h.depth a ha
      exact ⟨n, hn'.of_leaf hleaf hkeep, hb⟩
    · refine ⟨d + 1, hp.depth_below (fun p _ hpd => hpd.of_leaf hleaf hkeep) ?_, hd⟩
      exact entryLinks_of_find (Rows.find_of_mem ((Rows.mem_insert hn).mpr (.inr rfl)))

/-- Rewriting a row keeps what other entries need of it. -/
theorem find_save_folder (he : t.find e.id = some e') (hl : e.library = e'.library) (hk : e.isFolder = e'.isFolder)
    (hf : t.find p = some f) :
    ∃ g, (t.save e).find p = some g ∧ g.library = f.library ∧ g.isFolder = f.isFolder := by
  by_cases hp : e.id = p
  · subst hp
    rw [he] at hf
    cases hf
    refine ⟨e, ?_, hl, hk⟩
    rw [Rows.find_save, if_pos rfl, he]
    rfl
  · refine ⟨f, ?_, rfl, rfl⟩
    rw [Rows.find_save, if_neg hp, hf]

/-- Moving and renaming an entry: its new location is not below it, and the folders it takes
along still fit. -/
theorem Tree.save (h : Tree cfg t) (he : t.find e.id = some e') (hlib : e.library = e'.library)
    (hkind : e.isFolder = e'.isFolder) (hp : Located t e.library e.parent d)
    (hb : ∀ p, e.parent = some p → ∀ m, ¬(entryLinks t).Below e.id p m)
    (hh : ∀ f ∈ t.list, f.isFolder = true → ∀ m, (entryLinks t).Below e.id f.id m → d + 1 + m ≤ maxFolderDepth)
    (hu : Fresh cfg.upper t e) (hl : Fresh cfg.lower t e) : Tree cfg (t.save e) := by
  have hkeep : ∀ k, k ≠ e.id → entryLinks (t.save e) k = entryLinks t k := by
    intro k hk
    unfold entryLinks
    rw [Rows.find_save, if_neg hk.symm]
  have hself : entryLinks (t.save e) e.id = some e.parent := by
    unfold entryLinks
    rw [Rows.find_save, if_pos rfl, he]
    rfl
  have hdepth : (entryLinks (t.save e)).Depth e.id (d + 1) :=
    hp.depth_below (fun p hpp hpd => hpd.of_not_below hkeep (hb p hpp)) hself
  have hold : ∀ a ∈ (t.save e).list, ∃ b ∈ t.list, b.id = a.id ∧ b.isFolder = a.isFolder := by
    intro a ha
    rcases Rows.mem_save.mp ha with ⟨ha, -⟩ | ⟨rfl, -⟩
    · exact ⟨a, ha, rfl, rfl⟩
    · exact ⟨e', Rows.mem_of_find he, Rows.key_of_find he, hkind.symm⟩
  refine ⟨?_, ?_, h.upper.save hu, h.lower.save hl⟩
  · intro a ha p hap
    have hparent : ∃ f, t.find p = some f ∧ f.library = a.library ∧ f.isFolder = true := by
      rcases Rows.mem_save.mp ha with ⟨ha, -⟩ | ⟨rfl, -⟩
      · exact h.parent_folder a ha p hap
      · rw [hap] at hp
        obtain ⟨f, hf, hfl, hff, -⟩ := hp
        exact ⟨f, hf, hfl, hff⟩
    obtain ⟨f, hf, hfl, hff⟩ := hparent
    obtain ⟨g, hg, hgl, hgf⟩ := find_save_folder he hlib hkind hf
    exact ⟨g, hg, hgl.trans hfl, hgf.trans hff⟩
  · intro a ha
    obtain ⟨b, hbm, hba, hbk⟩ := hold a ha
    obtain ⟨n, hn, hle⟩ := h.depth b hbm
    rw [hba] at hn
    rcases Links.Depth.of_move hkeep hdepth hn with ⟨m, hbelow, hm⟩ | hn'
    · refine ⟨d + 1 + m, hm, fun hf => ?_⟩
      rw [← hba] at hbelow
      exact hh b hbm (hbk.trans hf) m hbelow
    · exact ⟨n, hn', fun hf => hle (hbk.trans hf)⟩

/-- Rewriting an entry in place. -/
theorem Tree.resave (h : Tree cfg t) (he : t.find e.id = some e') (hlib : e.library = e'.library)
    (hkind : e.isFolder = e'.isFolder) (hparent : e.parent = e'.parent) (hname : e.name = e'.name) :
    Tree cfg (t.save e) := by
  have hlinks : entryLinks (t.save e) = entryLinks t := by
    funext k
    unfold entryLinks
    rw [Rows.find_save]
    by_cases hk : e.id = k
    · subst hk
      rw [if_pos rfl, he]
      simp [hparent]
    · rw [if_neg hk]
  have hmem : e' ∈ t.list := Rows.mem_of_find he
  have hid : e'.id = e.id := Rows.key_of_find he
  have hfresh : ∀ map, Distinct map t → Fresh map t e := by
    intro map hd f hf hne hl hp hm
    apply hne
    have hfe := hd f hf e' hmem (hl.trans hlib) (hp.trans hparent) (by rw [hm, hname])
    rw [hfe, hid]
  refine ⟨?_, ?_, h.upper.save (hfresh _ h.upper), h.lower.save (hfresh _ h.lower)⟩
  · intro a ha p hap
    have hold : ∃ f, t.find p = some f ∧ f.library = a.library ∧ f.isFolder = true := by
      rcases Rows.mem_save.mp ha with ⟨ha, -⟩ | ⟨rfl, -⟩
      · exact h.parent_folder a ha p hap
      · obtain ⟨f, hf, hfl, hff⟩ := h.parent_folder e' hmem p (hparent ▸ hap)
        exact ⟨f, hf, hfl.trans hlib.symm, hff⟩
    obtain ⟨f, hf, hfl, hff⟩ := hold
    obtain ⟨g, hg, hgl, hgf⟩ := find_save_folder he hlib hkind hf
    exact ⟨g, hg, hgl.trans hfl, hgf.trans hff⟩
  · intro a ha
    rw [hlinks]
    rcases Rows.mem_save.mp ha with ⟨ha, -⟩ | ⟨rfl, -⟩
    · exact h.depth a ha
    · obtain ⟨n, hn, hle⟩ := h.depth e' hmem
      rw [hid] at hn
      exact ⟨n, hn, fun hf => hle (hkind.symm.trans hf)⟩

/-- Deleting a set of entries that holds everything below its members. -/
theorem Tree.delete (h : Tree cfg t) {q : Entry → Bool}
    (hq : ∀ a ∈ t.list, ∀ p b, a.parent = some p → t.find p = some b → q b = true → q a = true) :
    Tree cfg (t.delete q) := by
  have hup : ∀ a ∈ t.list, q a = false → ∀ p, a.parent = some p →
      ∃ f, t.find p = some f ∧ q f = false ∧ f.library = a.library ∧ f.isFolder = true := by
    intro a ha hqa p hap
    obtain ⟨f, hf, hrest⟩ := h.parent_folder a ha p hap
    refine ⟨f, hf, ?_, hrest⟩
    by_contra hqf
    have hqa' := hq a ha p f hap hf (by simpa using hqf)
    rw [hqa] at hqa'
    cases hqa'
  have hfind : ∀ p f, t.find p = some f → q f = false → (t.delete q).find p = some f := by
    intro p f hf hqf
    rw [Rows.find_delete, hf, Option.filter_some, if_pos (by simp [hqf])]
  have hkept : ∀ p f, (t.delete q).find p = some f → t.find p = some f ∧ q f = false := by
    intro p f hf
    obtain ⟨hmem, hid⟩ := Rows.find_eq_some.mp hf
    obtain ⟨hmem, hqf⟩ := Rows.mem_delete.mp hmem
    exact ⟨Rows.find_eq_some.mpr ⟨hmem, hid⟩, hqf⟩
  refine ⟨?_, ?_, h.upper.delete q, h.lower.delete q⟩
  · intro a ha p hap
    obtain ⟨ha, hqa⟩ := Rows.mem_delete.mp ha
    obtain ⟨f, hf, hqf, hrest⟩ := hup a ha hqa p hap
    exact ⟨f, hfind p f hf hqf, hrest⟩
  · intro a ha
    obtain ⟨ham, hqa⟩ := Rows.mem_delete.mp ha
    obtain ⟨n, hn, hle⟩ := h.depth a ham
    refine ⟨n, ?_, hle⟩
    apply hn.congr (K := fun k => ∃ f, (t.delete q).find k = some f)
    · rintro k ⟨f, hf⟩
      rw [entryLinks_of_find hf, entryLinks_of_find (hkept k f hf).1]
    · rintro k j ⟨f, hf⟩ hp
      obtain ⟨hf, hqf⟩ := hkept k f hf
      rw [entryLinks_of_find hf] at hp
      obtain ⟨g, hg, hqg, -⟩ := hup f (Rows.mem_of_find hf) hqf j (Option.some.inj hp)
      exact ⟨g, hfind j g hg hqg⟩
    · exact ⟨a, Rows.find_of_mem ha⟩

end

end FireDash.FileLibrary
