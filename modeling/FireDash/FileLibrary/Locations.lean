import FireDash.FileLibrary.Tree

/-! What the location checks, the subtree searches and the ancestry of a folder say about
the forest of the entries. -/
namespace FireDash.FileLibrary

variable {cfg : Config} {s : State} {e f : Entry} {library d n : ℕ} {name : String}

/-- A parent as the services load it: none, or the row of a folder of the library. -/
def FolderRow (s : State) (library : ℕ) (parent : Option Entry) : Prop :=
  ∀ f ∈ parent, s.entries.find f.id = some f ∧ f.library = library ∧ f.isFolder = true

theorem State.scopedEntry_eq_ok {id : ℕ} {folder : Bool} (h : s.scopedEntry library id folder = .ok e) :
    s.entries.find id = some e ∧ e.library = library ∧ (folder = true → e.isFolder = true) := by
  unfold scopedEntry at h
  cases hf : s.entries.find id with
  | none =>
    rw [hf] at h
    cases h
  | some a =>
    rw [hf] at h
    dsimp only at h
    split_ifs at h with hl hk
    cases h
    refine ⟨rfl, not_not.mp hl, fun hfolder => ?_⟩
    by_contra hne
    exact hk ⟨hfolder, hne⟩

theorem State.parentEntry_eq_ok {parentId : Option ℕ} {parent : Option Entry}
    (h : s.parentEntry library parentId = .ok parent) : FolderRow s library parent := by
  intro f hf
  cases parentId with
  | none =>
    cases h
    cases hf
  | some id =>
    obtain ⟨a, ha, hp⟩ := bind_eq_ok.mp h
    obtain rfl := pure_eq_ok.mp hp
    obtain rfl := Option.some.inj hf
    obtain ⟨hfind, hl, hk⟩ := scopedEntry_eq_ok ha
    have hid : a.id = id := Rows.key_of_find hfind
    exact ⟨hid ▸ hfind, hl, hk rfl⟩

theorem State.parentOf_eq_ok {parent : Option Entry} (h : s.parentOf e = .ok parent) :
    parent.map (·.id) = e.parent ∧ ∀ f ∈ parent, s.entries.find f.id = some f := by
  unfold parentOf at h
  cases hp : e.parent with
  | none =>
    rw [hp] at h
    cases h
    simp
  | some p =>
    rw [hp] at h
    cases hf : s.entries.find p with
    | none =>
      simp only [hf] at h
      cases h
    | some f =>
      simp only [hf] at h
      cases h
      have hid : f.id = p := Rows.key_of_find hf
      simp [hid, hf]

/-- The parent of an entry is a folder of its library. -/
theorem Tree.folderRow_parentOf (h : Tree cfg s.entries) (he : e ∈ s.entries.list) {parent : Option Entry}
    (hp : s.parentOf e = .ok parent) : FolderRow s e.library parent := by
  obtain ⟨hmap, hrow⟩ := State.parentOf_eq_ok hp
  intro f hf
  have hpe : e.parent = some f.id := by
    rw [Option.mem_def] at hf
    rw [← hmap, hf]
    rfl
  obtain ⟨g, hg, hgl, hgk⟩ := h.parent_folder e he f.id hpe
  rw [hrow f hf] at hg
  cases hg
  exact ⟨hrow f hf, hgl, hgk⟩

/-- The parent of every stored entry can be loaded. -/
theorem Tree.parentOf_exists (h : Tree cfg s.entries) (he : e ∈ s.entries.list) :
    ∃ parent, s.parentOf e = .ok parent := by
  unfold State.parentOf
  cases hp : e.parent with
  | none => exact ⟨none, rfl⟩
  | some p =>
    obtain ⟨f, hf, -⟩ := h.parent_folder e he p hp
    simp [hf]

/-- The loop counts the folders above a location, and passes the entry to be moved nowhere. -/
theorem State.locationDepth_eq_ok {entry : Option ℕ} {levels : ℕ}
    (h : s.locationDepth entry levels (some f) = .ok d) (hf : s.entries.find f.id = some f) :
    (entryLinks s.entries).Depth f.id d ∧
      ∀ i, entry = some i → ∀ m, ¬(entryLinks s.entries).Below i f.id m := by
  induction levels generalizing f d with
  | zero => cases h
  | succ levels ih =>
    unfold locationDepth at h
    obtain ⟨hne, h⟩ := check_eq_ok.mp h
    obtain ⟨parent, hparent, h⟩ := bind_eq_ok.mp h
    obtain ⟨d', hd', h⟩ := bind_eq_ok.mp h
    obtain rfl := pure_eq_ok.mp h
    obtain ⟨hmap, hrow⟩ := parentOf_eq_ok hparent
    have hlink : entryLinks s.entries f.id = some f.parent := entryLinks_of_find hf
    cases parent with
    | none =>
      have hroot : entryLinks s.entries f.id = some none := by rw [hlink, ← hmap]; rfl
      have hz : d' = 0 := by
        cases levels <;> cases hd' <;> rfl
      subst hz
      refine ⟨.root hroot, fun i hi m hb => ?_⟩
      cases hb with
      | refl => exact hne hi.symm
      | step hp _ =>
        rw [hroot] at hp
        cases hp
    | some g =>
      have hchild : entryLinks s.entries f.id = some (some g.id) := by rw [hlink, ← hmap]; rfl
      obtain ⟨hdepth, hbelow⟩ := ih hd' (hrow g rfl)
      refine ⟨.child hchild hdepth, fun i hi m hb => ?_⟩
      cases hb with
      | refl => exact hne hi.symm
      | step hp hj =>
        rw [hchild] at hp
        cases hp
        exact hbelow i hi _ hj

theorem mem_childIds {foldersOnly : Bool} {frontier : List ℕ} {k : ℕ} :
    k ∈ s.childIds foldersOnly frontier ↔ ∃ e ∈ s.entries.list, e.id = k ∧ (∃ p ∈ frontier, e.parent = some p) ∧
      (foldersOnly = true → e.isFolder = true) := by
  simp only [State.childIds, List.mem_map, List.mem_filter, decide_eq_true_eq]
  constructor
  · rintro ⟨e, ⟨he, ⟨p, hp, hf⟩, hk⟩, rfl⟩
    exact ⟨e, he, rfl, ⟨p, hf, hp⟩, hk⟩
  · rintro ⟨e, he, rfl, ⟨p, hf, hp⟩, hk⟩
    exact ⟨e, ⟨he, ⟨p, hp, hf⟩, hk⟩, rfl⟩

theorem link_of_mem_childIds {foldersOnly : Bool} {frontier : List ℕ} {k : ℕ}
    (h : k ∈ s.childIds foldersOnly frontier) : ∃ j ∈ frontier, entryLinks s.entries k = some (some j) := by
  obtain ⟨e, he, rfl, ⟨p, hp, hpar⟩, -⟩ := mem_childIds.mp h
  exact ⟨p, hp, by rw [entryLinks_of_find (Rows.find_of_mem he), hpar]⟩

/-- The searches of moves and deletions end. -/
theorem Tree.subtreeLevels_exists (h : Tree cfg s.entries) (he : e ∈ s.entries.list) (foldersOnly : Bool) :
    ∃ levels, s.subtreeLevels foldersOnly e.id = .ok levels := by
  have hbound : ∀ k n, (entryLinks s.entries).Depth k n → n ≤ maxFolderDepth + 1 := by
    intro k n hn
    cases hn with
    | root _ => omega
    | @child _ j n hp hj =>
      obtain ⟨a, ha, hpar⟩ := entryLinks_eq_some hp
      obtain ⟨f, hf, -, hfolder⟩ := h.parent_folder a (Rows.mem_of_find ha) j hpar
      obtain ⟨m, hm, hle⟩ := h.depth f (Rows.mem_of_find hf)
      rw [show f.id = j from Rows.key_of_find hf] at hm
      have hn := hj.unique hm
      have hmle := hle hfolder
      omega
  have hstart : ∀ k ∈ [e.id], ∃ n, (entryLinks s.entries).Depth k n ∧ 1 ≤ n := by
    intro k hk
    obtain rfl := List.mem_singleton.mp hk
    obtain ⟨n, hn, -⟩ := h.depth e he
    exact ⟨n, hn, hn.pos⟩
  have hrounds : maxFolderDepth + 1 < 1 + s.searchRounds := by
    unfold State.searchRounds
    omega
  have hchildren : ∀ level k, k ∈ s.childIds foldersOnly level → ∃ j ∈ level, entryLinks s.entries k = some (some j) :=
    fun _ _ hk => link_of_mem_childIds hk
  obtain ⟨levels, hl⟩ := Links.levels_isSome hchildren hbound hstart hrounds
  exact ⟨levels, by simp only [State.subtreeLevels, hl]⟩

theorem State.subtreeLevels_eq_ok {foldersOnly : Bool} {id : ℕ} {levels : List (List ℕ)}
    (h : s.subtreeLevels foldersOnly id = .ok levels) :
    Links.levels (s.childIds foldersOnly) s.searchRounds [id] = some levels := by
  unfold subtreeLevels at h
  cases hl : Links.levels (s.childIds foldersOnly) s.searchRounds [id] with
  | none =>
    rw [hl] at h
    cases h
  | some ls =>
    rw [hl] at h
    cases h
    rfl

/-- A moved folder takes along no folder deeper below it than its height. -/
theorem Tree.below_lt_height (h : Tree cfg s.entries) {id m : ℕ} {levels : List (List ℕ)}
    (hl : s.subtreeLevels true id = .ok levels) (hf : f ∈ s.entries.list) (hfolder : f.isFolder = true)
    (hb : (entryLinks s.entries).Below id f.id m) : m < levels.length := by
  have hparents : ∀ j k, entryLinks s.entries k = some (some j) →
      ∃ a ∈ s.entries.list, a.id = j ∧ a.isFolder = true := by
    intro j k hp
    obtain ⟨a, ha, hpar⟩ := entryLinks_eq_some hp
    obtain ⟨g, hg, -, hgf⟩ := h.parent_folder a (Rows.mem_of_find ha) j hpar
    exact ⟨g, Rows.mem_of_find hg, Rows.key_of_find hg, hgf⟩
  have hchildren : ∀ level j k, j ∈ level → entryLinks s.entries k = some (some j) →
      (∃ a ∈ s.entries.list, a.id = k ∧ a.isFolder = true) → k ∈ s.childIds true level := by
    rintro level j k hj hp ⟨a, ha, rfl, hfa⟩
    rw [entryLinks_of_find (Rows.find_of_mem ha)] at hp
    exact mem_childIds.mpr ⟨a, ha, rfl, ⟨j, hj, Option.some.inj hp⟩, fun _ => hfa⟩
  obtain ⟨level, hlevel, -⟩ := Links.mem_levels_of_below hchildren hparents (State.subtreeLevels_eq_ok hl)
    (List.mem_singleton.mpr rfl) ⟨f, hf, rfl, hfolder⟩ hb
  exact (List.getElem?_eq_some_iff.mp hlevel).1

/-- A deletion collects everything below what it collects. -/
theorem State.mem_subtree_of_parent {id : ℕ} {levels : List (List ℕ)} (hl : s.subtreeLevels false id = .ok levels)
    (he : e ∈ s.entries.list) (hp : e.parent = some f.id) (hf : f.id ∈ levels.flatten) : e.id ∈ levels.flatten := by
  obtain ⟨level, hmem, hlevel⟩ := List.mem_flatten.mp hf
  obtain ⟨k, hk⟩ := List.mem_iff_getElem?.mp hmem
  have hchild : e.id ∈ s.childIds false level := mem_childIds.mpr ⟨e, he, rfl, ⟨f.id, hlevel, hp⟩, by simp⟩
  have hnext := Links.levels_succ (subtreeLevels_eq_ok hl) hk hchild
  exact List.mem_flatten.mpr ⟨_, List.mem_of_getElem? hnext, hchild⟩

/-! ### The location check -/

/-- What a passed location check promises. -/
structure Fits (cfg : Config) (t : Rows Entry.id) (library : ℕ) (name : String) (parent entry : Option ℕ)
    (folder : Bool) (d : ℕ) : Prop where
  located : Located t library parent d
  level : folder = true → d + 1 ≤ maxFolderDepth
  outside : ∀ i, entry = some i → ∀ p, parent = some p → ∀ m, ¬(entryLinks t).Below i p m
  subtree : ∀ i, entry = some i → folder = true → ∀ f ∈ t.list, f.isFolder = true →
    ∀ m, (entryLinks t).Below i f.id m → d + 1 + m ≤ maxFolderDepth
  fresh : ∀ f ∈ t.list, some f.id ≠ entry → f.library = library → f.parent = parent →
    cfg.upper f.name ≠ cfg.upper name

theorem State.fresh_of_not_duplicate {parent entry : Option ℕ}
    (h : s.duplicateExists cfg library name parent entry = false) (hf : f ∈ s.entries.list)
    (hne : some f.id ≠ entry) (hl : f.library = library) (hp : f.parent = parent) :
    cfg.upper f.name ≠ cfg.upper name := by
  intro hm
  unfold duplicateExists at h
  rw [List.any_eq_false] at h
  have hcond := h f hf
  simp [hl, hp, hm, hne] at hcond

theorem Tree.fits_of_validate (h : Tree cfg s.entries) {parent : Option Entry} {entry : Option ℕ} {folder : Bool}
    (hp : FolderRow s library parent) (hv : s.validateLocation cfg library name parent entry folder = .ok ())
    (hentry : ∀ i, entry = some i → folder = true → ∃ a ∈ s.entries.list, a.id = i ∧ a.isFolder = true) :
    ∃ d, Fits cfg s.entries library name (parent.map (·.id)) entry folder d := by
  unfold State.validateLocation at hv
  obtain ⟨hdup, hv⟩ := check_eq_ok.mp hv
  obtain ⟨d, hd, hv⟩ := bind_eq_ok.mp hv
  obtain ⟨height, hheight, hv⟩ := bind_eq_ok.mp hv
  obtain ⟨hfit, -⟩ := check_eq_ok.mp hv
  have hfresh : ∀ f ∈ s.entries.list, some f.id ≠ entry → f.library = library →
      f.parent = parent.map (·.id) → cfg.upper f.name ≠ cfg.upper name := by
    intro f hf hne hl hpar
    exact State.fresh_of_not_duplicate (by simpa using hdup) hf hne hl hpar
  have hlocated : Located s.entries library (parent.map (·.id)) d ∧
      ∀ i, entry = some i → ∀ p, parent.map (·.id) = some p → ∀ m, ¬(entryLinks s.entries).Below i p m := by
    cases parent with
    | none =>
      have hz : d = 0 := by
        cases hd
        rfl
      exact ⟨hz, by simp⟩
    | some f =>
      obtain ⟨hrow, hl, hk⟩ := hp f rfl
      obtain ⟨hdepth, hbelow⟩ := State.locationDepth_eq_ok hd hrow
      refine ⟨⟨f, hrow, hl, hk, hdepth⟩, fun i hi p hpe => ?_⟩
      obtain rfl := Option.some.inj hpe
      exact hbelow i hi
  refine ⟨d, hlocated.1, fun hfolder => ?_, hlocated.2, fun i hi hfolder f hf hff m hb => ?_, hfresh⟩
  · subst hfolder
    cases entry with
    | none =>
      cases hheight
      omega
    | some i =>
      obtain ⟨levels, hl, hlen⟩ := bind_eq_ok.mp hheight
      obtain rfl := pure_eq_ok.mp hlen
      obtain ⟨a, ha, rfl, hfa⟩ := hentry i rfl rfl
      have hlt := h.below_lt_height hl ha hfa .refl
      omega
  · subst hfolder hi
    obtain ⟨levels, hl, hlen⟩ := bind_eq_ok.mp hheight
    obtain rfl := pure_eq_ok.mp hlen
    have hlt := h.below_lt_height hl hf hff hb
    omega

/-! ### Navigation -/

/-- The loop of `folder_ancestry` gets to the root of every folder. -/
theorem Tree.ancestry_exists (h : Tree cfg s.entries) {levels : ℕ} {ancestors : List Entry}
    (hf : s.entries.find f.id = some f) (hl : f.library = library) (hk : f.isFolder = true)
    (hn : (entryLinks s.entries).Depth f.id n) (hle : n ≤ levels)
    (hbelow : ∀ a ∈ ancestors, ∃ m, (entryLinks s.entries).Depth a.id m ∧ n < m) :
    ∃ path, s.ancestry library levels ancestors (some f) = .ok path := by
  induction levels generalizing f n ancestors with
  | zero =>
    have hpos := hn.pos
    omega
  | succ levels ih =>
    have hfresh : ¬f.id ∈ ancestors.map (·.id) := by
      intro hmem
      obtain ⟨a, ha, hid⟩ := List.mem_map.mp hmem
      obtain ⟨m, hm, hlt⟩ := hbelow a ha
      rw [hid] at hm
      have heq := hm.unique hn
      omega
    obtain ⟨parent, hparent⟩ := h.parentOf_exists (Rows.mem_of_find hf)
    have hstep : s.ancestry library (levels + 1) ancestors (some f) =
        s.ancestry library levels (f :: ancestors) parent := by
      rw [State.ancestry, if_neg (by simp [hl, hk]), if_neg hfresh, hparent]
    rw [hstep]
    cases parent with
    | none => exact ⟨f :: ancestors, by cases levels <;> rfl⟩
    | some g =>
      obtain ⟨hg, hgl, hgk⟩ := h.folderRow_parentOf (Rows.mem_of_find hf) hparent g rfl
      have hlink : entryLinks s.entries f.id = some (some g.id) := by
        rw [entryLinks_of_find hf, ← (State.parentOf_eq_ok hparent).1]
        rfl
      cases hn with
      | root hp =>
        rw [hlink] at hp
        cases hp
      | @child _ j n hp hj =>
        rw [hlink] at hp
        cases hp
        refine ih hg (hgl.trans hl) hgk hj (by omega) fun a ha => ?_
        rcases List.mem_cons.mp ha with rfl | ha
        · exact ⟨n + 1, .child hlink hj, by omega⟩
        · obtain ⟨m, hm, hlt⟩ := hbelow a ha
          exact ⟨m, hm, by omega⟩

theorem Tree.folderAncestry_exists (h : Tree cfg s.entries) (hf : f ∈ s.entries.list) (hk : f.isFolder = true) :
    ∃ path, s.folderAncestry f.library (some f) = .ok path := by
  obtain ⟨n, hn, hle⟩ := h.depth f hf
  exact h.ancestry_exists (Rows.find_of_mem hf) rfl hk hn (hle hk) (by simp)

end FireDash.FileLibrary
