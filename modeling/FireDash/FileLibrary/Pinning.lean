import FireDash.FileLibrary.System
import FireDash.Publications.Refinement.Effects

/-! The contents that entries or claimed publications reference are never collected. -/
namespace FireDash.FileLibrary

open Publications (Actor Canonical Content DatasetTypeCode Db Digest FileRecord FrozenDocument LibraryOwner Publication
  PublicationContent PublicationId Write Writes)

/-- A pin on the content that was frozen for a document, with its size and digest. -/
structure Freezes (library : ℕ) (entry : FileRecord × ℕ) (pin : PublicationContent) : Prop where
  document : pin.documentId = entry.1.id
  content : pin.content.id = entry.2
  library : pin.content.library = library
  size : pin.content.sizeBytes = entry.1.sizeBytes
  digest : pin.content.sha256 = entry.1.sha256

/-- Every pin is on a stored content, and a held file publication has exactly the pins of its
frozen documents. -/
structure Pinned (contents : Rows Content.id) (db : Db) : Prop where
  stored : ∀ pin ∈ db.documents.contents, contents.find pin.content.id = some pin.content
  attempt : ∀ pin ∈ db.documents.contents,
    ∃ p, db.publications.find pin.publication = some p ∧ p.status ≠ .staged
  frozen : ∀ {id p}, db.publications.find id = some p → p.status.isHeld = true →
    p.key.target.datasetTypeCode.isFileDataset = true →
    ∃ snapshot, p.sourceSnapshot = some (.fileLibrary snapshot) ∧ (snapshot.documents.map (·.1.id)).Nodup ∧
      List.Forall₂ (Freezes snapshot.library.id) snapshot.documents
        (db.documents.contents.filter (·.publication = id))

/-- The libraries the publication builders read are stored rows. -/
structure Reads (contents : Rows Content.id) (canonical : Canonical) : Prop where
  stored : ∀ c ∈ canonical.contents, contents.find c.id = some c
  nodup : ∀ l ∈ canonical.libraries, (l.entries.map (·.id)).Nodup

variable {cfg : Publications.Config} {env : Publications.Env} {db db' : Db} {contents : Rows Content.id}

/-! ### What a claim reads and pins -/

theorem reads_at (env : Env) (s : State) : Reads s.contents (env.at s).canonical where
  stored c hc := by
    simp only [Canonical.contents, Env.at, List.mem_flatMap, List.mem_map, List.mem_filterMap] at hc
    obtain ⟨_, ⟨l, -, rfl⟩, _, he, hcontent⟩ := hc
    simp only [State.sourceLibrary, List.mem_map] at he
    obtain ⟨e, -, rfl⟩ := he
    have hfind := (Option.filter_eq_some_iff.mp hcontent).1
    unfold State.contentOf at hfind
    obtain ⟨i, -, hi⟩ := Option.bind_eq_some_iff.mp hfind
    rw [Rows.key_of_find hi]
    exact hi
  nodup l hl := by
    obtain ⟨row, -, rfl⟩ := List.mem_map.mp hl
    have hids : (s.sourceLibrary row).entries.map (·.id) =
        (s.entries.list.filter fun e => decide (e.library = row.id)).map (·.id) := by
      simp [State.sourceLibrary, State.sourceEntry, Function.comp_def]
    rw [hids]
    exact (List.filter_sublist.map _).nodup s.entries.nodup

theorem Reads.libraryOf (h : Reads contents env.canonical) (owner : LibraryOwner) :
    ((env.canonical.libraryOf owner).entries.map (·.id)).Nodup ∧
      ∀ e ∈ (env.canonical.libraryOf owner).entries, ∀ c, e.content = some c → contents.find c.id = some c := by
  unfold Canonical.libraryOf
  cases hl : env.canonical.libraries.find? fun l => l.owner = owner with
  | none => simp
  | some l =>
    have hmem := List.mem_of_find?_eq_some hl
    refine ⟨h.nodup l hmem, fun e he c hc => h.stored c ?_⟩
    exact List.mem_flatMap.mpr ⟨l, hmem, List.mem_filterMap.mpr ⟨e, he, hc⟩⟩

/-- The documents of a snapshot are distinct, and each names a stored content as it is. -/
theorem Reads.snapshot (h : Reads contents env.canonical) {target : Publications.Target}
    {snapshot : Publications.LibrarySnapshot} {d : Digest}
    (hsource : Publications.currentSource cfg env target = .ok (.fileLibrary snapshot, d)) :
    (snapshot.documents.map (·.1.id)).Nodup ∧ ∀ entry ∈ snapshot.documents, ∃ c, contents.find entry.2 = some c ∧
      c.sizeBytes = entry.1.sizeBytes ∧ c.sha256 = entry.1.sha256 := by
  obtain ⟨owner, rfl⟩ := Publications.library_of_currentSource hsource
  obtain ⟨hnodup, hstored⟩ := h.libraryOf owner
  have hperm := List.perm_insertionSort (fun a b : Publications.Entry => a.id ≤ b.id)
    (env.canonical.libraryOf owner).entries
  constructor
  · have hsub : ∀ l : List Publications.Entry,
        ((l.filterMap fun e => e.content.map fun c =>
          (({ id := e.id, name := e.name, folderId := e.parent, sizeBytes := c.sizeBytes, sha256 := c.sha256 } : FileRecord),
            c.id)).map (·.1.id)).Sublist (l.map (·.id)) := by
      intro l
      induction l with
      | nil => exact .slnil
      | cons e l ih =>
        cases hc : e.content with
        | none => simpa [List.filterMap_cons, hc] using ih.cons e.id
        | some c => simpa [List.filterMap_cons, hc] using ih.cons_cons e.id
    exact (hsub _).nodup ((hperm.map _).nodup_iff.mpr hnodup)
  · intro entry hentry
    simp only [Publications.snapshotForLibrary, List.mem_filterMap, Option.map_eq_some_iff] at hentry
    obtain ⟨e, he, c, hc, rfl⟩ := hentry
    exact ⟨c, hstored e (hperm.mem_iff.mp he) c hc, rfl, rfl⟩

/-- A claim pins what it froze. -/
theorem Reads.pins (h : Reads contents env.canonical) {target : Publications.Target}
    {snapshot : Publications.LibrarySnapshot} {d : Digest} {id : PublicationId} {pins : List PublicationContent}
    (hsource : Publications.currentSource cfg env target = .ok (.fileLibrary snapshot, d))
    (hpins : Publications.PinsOf env.canonical id (.fileLibrary snapshot) pins) :
    List.Forall₂ (Freezes snapshot.library.id) snapshot.documents pins := by
  obtain ⟨-, hstored⟩ := h.snapshot hsource
  refine ((List.forall₂_and_left _ _).mpr ⟨hstored, hpins⟩).imp ?_
  rintro entry pin ⟨⟨c, hc, hsize, hdigest⟩, hpin⟩
  have hsame : pin.content = c := by
    have hfind := h.stored _ hpin.held
    rw [hpin.content, hc] at hfind
    exact (Option.some.inj hfind).symm
  exact ⟨hpin.document, hpin.content, hpin.library, by rw [hsame, hsize], by rw [hsame, hdigest]⟩

/-! ### One write of a publication service -/

namespace Pinned

/-- Pins are kept, and no further publication is held. -/
theorem of_rows (h : Pinned contents db) (hpins : db'.documents.contents = db.documents.contents)
    (hattempt : ∀ {id p}, db.publications.find id = some p → p.status ≠ .staged →
      ∃ q, db'.publications.find id = some q ∧ q.status ≠ .staged)
    (hheld : ∀ {id q}, db'.publications.find id = some q → q.status.isHeld = true →
      ∃ p, db.publications.find id = some p ∧ p.status.isHeld = true ∧ q.sourceSnapshot = p.sourceSnapshot ∧
        q.key = p.key) : Pinned contents db' where
  stored := hpins ▸ h.stored
  attempt pin hpin := by
    obtain ⟨p, hp, hst⟩ := h.attempt pin (hpins ▸ hpin)
    exact hattempt hp hst
  frozen {id q} hq hst hfile := by
    obtain ⟨p, hp, hheldp, hsnapshot, hkey⟩ := hheld hq hst
    rw [hsnapshot, hpins]
    exact h.frozen hp hheldp (hkey ▸ hfile)

theorem insert (h : Pinned contents db) {p : Publication} (hst : p.status = .staged) :
    Pinned contents { db with publications := db.publications.insert p } := by
  refine h.of_rows rfl (fun {id q} hq hn => ?_) fun {id q} hq hheld => ?_
  · have hne : id ≠ db.publications.nextId := (Table.lt_nextId_of_find hq).ne
    exact ⟨q, by rw [Table.find_insert, if_neg hne, hq], hn⟩
  · rw [Table.find_insert] at hq
    split at hq
    · cases hq
      rw [hst] at hheld
      cases hheld
    · exact ⟨q, hq, hheld, rfl, rfl⟩

theorem row (h : Pinned contents db) {id : PublicationId} {p : Publication} {f : Publication → Publication}
    (hp : db.publications.find id = some p) (hpubs : db'.publications = db.publications.modify id f)
    (hpins : db'.documents.contents = db.documents.contents) (hkey : (f p).key = p.key)
    (hmay : p.status.mayBecome (f p).status = true) (hkeeps : p.Keeps (f p)) : Pinned contents db' := by
  have hfind : ∀ {i q}, db.publications.find i = some q →
      db'.publications.find i = some (if id = i then f q else q) := by
    intro i q hq
    rw [hpubs, Table.find_modify, hq]
    split <;> rfl
  refine h.of_rows hpins (fun {i q} hq hn => ⟨_, hfind hq, ?_⟩) fun {i q} hq hheld => ?_
  · split
    · rename_i hi
      subst hi
      rw [hp] at hq
      cases hq
      intro hstaged
      rw [hstaged] at hmay
      revert hmay hn
      cases p.status <;> decide
    · exact hn
  · rw [hpubs, Table.find_modify] at hq
    split at hq
    · rename_i hi
      subst hi
      rw [hp] at hq
      cases hq
      obtain ⟨hpheld, hsnapshot, -⟩ := hkeeps hheld
      exact ⟨p, hp, hpheld, hsnapshot, hkey⟩
    · exact ⟨q, hq, hheld, rfl, rfl⟩

/-- Only terminal attempts lose their pins. -/
theorem release (h : Pinned contents db) {id : PublicationId} {p : Publication} (code : DatasetTypeCode)
    (hp : db.publications.find id = some p) (hst : p.status.isReleasable = true) :
    Pinned contents (db.release id code) := by
  have hsub : ∀ pin ∈ (db.release id code).documents.contents, pin ∈ db.documents.contents := by
    intro pin hpin
    unfold Db.release Publications.DocumentTables.release at hpin
    dsimp only at hpin
    split at hpin
    · exact List.mem_of_mem_filter hpin
    · exact hpin
  refine ⟨fun pin hpin => h.stored pin (hsub pin hpin), fun pin hpin => h.attempt pin (hsub pin hpin), ?_⟩
  intro i q hq hheld hfile
  have hne : i ≠ id := by
    rintro rfl
    have hsame : some q = some p := hq.symm.trans hp
    obtain rfl := Option.some.inj hsame
    revert hst hheld
    cases q.status <;> decide
  obtain ⟨snapshot, hsnapshot, hnodup, hpins⟩ := h.frozen hq hheld hfile
  refine ⟨snapshot, hsnapshot, hnodup, ?_⟩
  rw [← (Publications.SameGeneration.release db.documents code hne).contents] at hpins
  exact hpins

/-- A staged attempt is frozen on its current source, and its contents are pinned with it. -/
theorem claim (h : Pinned contents db) (hreads : Reads contents env.canonical) {id : PublicationId}
    {pub : Publication} {snapshot : Publications.Snapshot} {d : Digest} {pins : List PublicationContent}
    {f : Publication → Publication} (hp : db.publications.find id = some pub) (hst : pub.status = .staged)
    (hf : (f pub).status = .building) (hkey : (f pub).key = pub.key) (hs : (f pub).sourceSnapshot = some snapshot)
    (hsource : Publications.currentSource cfg env pub.key.target = .ok (snapshot, d))
    (hpins : Publications.PinsOf env.canonical id snapshot pins) :
    Pinned contents ((db.modifyPublication id f).pinned pins) := by
  have hown : ∀ pin ∈ pins, pin.publication = id ∧ pin.content ∈ env.canonical.contents := by
    intro pin hpin
    cases snapshot with
    | fileLibrary library =>
      obtain ⟨entry, -, hentry⟩ := exists_left_of_forall₂ hpins hpin
      exact ⟨hentry.publication, hentry.held⟩
    | _ =>
      rw [show pins = [] from hpins] at hpin
      cases hpin
  have hold : ∀ pin ∈ db.documents.contents, pin.publication ≠ id := by
    rintro pin hpin rfl
    obtain ⟨p, hfind, hn⟩ := h.attempt pin hpin
    rw [hp] at hfind
    cases hfind
    exact hn hst
  have hfind : ∀ i, ((db.modifyPublication id f).pinned pins).publications.find i =
      if i = id then (db.publications.find i).map f else db.publications.find i := by
    intro i
    simp only [Db.pinned, Db.modifyPublication, Table.find_modify, eq_comm]
  have hcontents : ((db.modifyPublication id f).pinned pins).documents.contents = db.documents.contents ++ pins := rfl
  refine ⟨fun pin hpin => ?_, fun pin hpin => ?_, fun {i q} hq hheld hfile => ?_⟩
  · rcases List.mem_append.mp hpin with hpin | hpin
    · exact h.stored pin hpin
    · exact hreads.stored _ (hown pin hpin).2
  · rw [hfind]
    rcases List.mem_append.mp hpin with hpin | hpin
    · rw [if_neg (hold pin hpin)]
      exact h.attempt pin hpin
    · rw [if_pos (hown pin hpin).1, (hown pin hpin).1, hp]
      refine ⟨f pub, rfl, ?_⟩
      rw [hf]
      decide
  · rw [hcontents, List.filter_append]
    rw [hfind] at hq
    split at hq
    · rename_i hi
      subst hi
      rw [hp] at hq
      cases hq
      rw [hkey] at hfile
      obtain ⟨library, rfl⟩ := (Publications.currentSource_isFile hsource).mp hfile
      refine ⟨library, hs, (hreads.snapshot hsource).1, ?_⟩
      rw [List.filter_eq_nil_iff.mpr fun pin hpin => by simpa using hold pin hpin,
        List.filter_eq_self.mpr fun pin hpin => by simpa using (hown pin hpin).1, List.nil_append]
      exact hreads.pins hsource hpins
    · rename_i hi
      obtain ⟨library, hsnapshot, hnodup, hfrozen⟩ := h.frozen hq hheld hfile
      refine ⟨library, hsnapshot, hnodup, ?_⟩
      have hnone : pins.filter (fun pin => decide (pin.publication = i)) = [] := by
        rw [List.filter_eq_nil_iff]
        intro pin hpin
        simp only [decide_eq_true_eq, (hown pin hpin).1]
        exact fun he => hi he.symm
      rw [hnone, List.append_nil]
      exact hfrozen

theorem write {marks : Publications.ScopeKey → Prop} (h : Pinned contents db) (hreads : Reads contents env.canonical)
    (hw : Write cfg env marks db db') : Pinned contents db' := by
  cases hw with
  | free hp hk hg hd hc hs =>
    refine h.of_rows hc (fun hq hn => ⟨_, hp ▸ hq, hn⟩) fun hq hheld => ⟨_, hp ▸ hq, hheld, rfl, rfl⟩
  | insert hst hpend => exact h.insert hst
  | claim hp hst hf h1 h2 h3 h4 h5 h6 hs hsource hmarks hrev hpins => exact h.claim hreads hp hst hf h2 hs hsource hpins
  | row hp hpubs hd hk hg he hw hkeeps hs => exact h.row hp hpubs (by rw [hd]) he.key he.status hkeeps
  | release code hp hst => exact h.release code hp hst

theorem writes {marks : Publications.ScopeKey → Prop} (h : Pinned contents db) (hreads : Reads contents env.canonical)
    (hw : Writes cfg env marks db db') : Pinned contents db' := by
  induction hw with
  | refl => exact h
  | tail _ step ih => exact ih.write hreads step

end Pinned

/-- The document the adapter resolves for a frozen entry: a stored content of the frozen size
and digest. -/
def Resolves (contents : Rows Content.id) (entry : FileRecord × ℕ) (document : FrozenDocument) : Prop :=
  ∃ c, contents.find entry.2 = some c ∧ c.sizeBytes = entry.1.sizeBytes ∧ c.sha256 = entry.1.sha256 ∧
    document = ⟨entry.1.id, entry.1.sha256, .file entry.1, c.storageKey⟩

theorem Pinned.frozenFiles (h : Pinned contents db) {id : PublicationId} {p : Publication}
    (hp : db.publications.find id = some p) (hheld : p.status.isHeld = true)
    (hfile : p.key.target.datasetTypeCode.isFileDataset = true) :
    ∃ snapshot documents, p.sourceSnapshot = some (.fileLibrary snapshot) ∧
      Publications.frozenFiles db.documents id p = .ok documents ∧
      List.Forall₂ (Resolves contents) snapshot.documents documents := by
  obtain ⟨snapshot, hsnapshot, hnodup, hfrozen⟩ := h.frozen hp hheld hfile
  have hids : (db.documents.contents.filter (·.publication = id)).map (·.documentId) =
      snapshot.documents.map (·.1.id) := by
    have hmap : List.Forall₂ (fun a b => b = a) (snapshot.documents.map (·.1.id))
        ((db.documents.contents.filter (·.publication = id)).map (·.documentId)) := by
      rw [List.forall₂_map_left_iff, List.forall₂_map_right_iff]
      exact hfrozen.imp fun _ _ hpin => hpin.document
    exact (List.forall₂_eq_eq_eq ▸ hmap.flip)
  obtain ⟨f, hrun, hf⟩ : ∃ f : FileRecord × ℕ → Except Publications.Error FrozenDocument,
      Publications.frozenFiles db.documents id p = snapshot.documents.mapM f ∧
      ∀ (entry : FileRecord × ℕ) (pin : PublicationContent), (db.documents.contents.filter (·.publication = id)).find?
          (fun pin => decide (pin.documentId = entry.1.id)) = some pin → Freezes snapshot.library.id entry pin →
        f entry = .ok ⟨entry.1.id, entry.1.sha256, .file entry.1, pin.content.storageKey⟩ := by
    refine ⟨?f, ?run, ?found⟩
    case run =>
      unfold Publications.frozenFiles Publications.frozenLibrary
      simp only [hsnapshot, bind, Except.bind, hids]
      rw [if_neg]
      simp only [hnodup.dedup, List.length_map, List.all_eq_true, decide_eq_true_eq, imp_self, implies_true, and_self,
        not_true_eq_false, not_false_eq_true]
    case found =>
      intro entry pin hfind hpin
      simp only [hfind, hpin.content, hpin.digest, hpin.size, hpin.library, and_self, if_true]
  have hresolve : ∀ entry ∈ snapshot.documents, ∃ document, f entry = .ok document ∧ Resolves contents entry document := by
    intro entry hentry
    obtain ⟨pin, hpin, hfreezes⟩ := exists_right_of_forall₂ hfrozen hentry
    have hfind := Rows.find_of_mem (t := ⟨_, hids ▸ hnodup⟩) hpin
    refine ⟨_, hf entry pin (hfreezes.document ▸ hfind) hfreezes, pin.content, ?_, hfreezes.size, hfreezes.digest, rfl⟩
    rw [← hfreezes.content]
    exact h.stored pin (List.mem_of_mem_filter hpin)
  obtain ⟨documents, hdocuments⟩ := mapM_exists_ok fun entry hentry => (hresolve entry hentry).imp fun _ hd => hd.1
  refine ⟨snapshot, documents, hsnapshot, hrun.trans hdocuments, ?_⟩
  refine ((List.forall₂_and_left _ _).mpr ⟨hresolve, mapM_eq_ok.mp hdocuments⟩).imp ?_
  rintro entry document ⟨⟨found, hfound, hresolves⟩, hdocument⟩
  rw [hdocument] at hfound
  cases hfound
  exact hresolves

/-! ### The calls -/

/-- The publications are in order, every pin is on a stored content, and no two contents share
a PDF. -/
structure Sound (s : State) : Prop where
  inv : Publications.Inv s.publications.core
  pinned : Pinned s.contents s.publications
  keys : ∀ c ∈ s.contents.list, ∀ d ∈ s.contents.list, c.storageKey = d.storageKey → c = d

/-- What every call but a collection may do: contents are only added, and only those of `adds`. -/
structure Preserves (adds : Content → Prop) (s t : State) : Prop where
  sound : Sound s → Sound t
  contents : ∀ c k, s.contents.find c = some k → t.contents.find c = some k
  added : ∀ k ∈ t.contents.list, k ∈ s.contents.list ∨ adds k
  removals : t.removals = s.removals

/-- The contents a call may add. -/
def Call.adds : Call → Content → Prop
  | .uploadPdf _ library upload, content => content.storageKey = upload.storageKey library
  | _, _ => False

section

variable {cfg : Config} {env : Env} {actor : Actor} {s t : State} {library : Library} {adds : Content → Prop} {α : Type}

/-- Contents and publications are the same. -/
theorem Preserves.of_rows (hc : t.contents = s.contents) (hp : t.publications = s.publications)
    (hr : t.removals = s.removals) : Preserves adds s t where
  sound h := ⟨hp ▸ h.inv, by rw [hc, hp]; exact h.pinned, hc ▸ h.keys⟩
  contents _ _ hk := hc ▸ hk
  added k hk := .inl (hc ▸ hk)
  removals := hr

instance : Bookkeeping (Preserves adds) where
  refl _ := .of_rows rfl rfl rfl
  trans _ _ _ h h' :=
    ⟨fun hs => h'.sound (h.sound hs), fun c k hk => h'.contents c k (h.contents c k hk),
      fun k hk => (h'.added k hk).elim (h.added k) .inr, h'.removals.trans h.removals⟩
  accesses _ _ := .of_rows rfl rfl rfl
  quotas _ _ := .of_rows rfl rfl rfl

theorem Pinned.mono {contents' : Rows Content.id} {db : Db} (h : Pinned s.contents db)
    (hc : ∀ c k, s.contents.find c = some k → contents'.find c = some k) : Pinned contents' db :=
  ⟨fun pin hpin => hc _ _ (h.stored pin hpin), h.attempt, h.frozen⟩

/-- Adding a content protects the others. -/
theorem preserves_insert {content : Content} (hn : s.contents.find content.id = none)
    (hkeys : ∀ c ∈ s.contents.list, c.storageKey ≠ content.storageKey) (hadds : adds content)
    (hc : t.contents = s.contents.insert content hn) (hp : t.publications = s.publications)
    (hr : t.removals = s.removals) : Preserves adds s t := by
  have hkeep : ∀ c k, s.contents.find c = some k → t.contents.find c = some k := by
    intro c k hk
    rw [hc, Rows.find_insert, if_neg, hk]
    rintro rfl
    rw [hn] at hk
    cases hk
  have hadded : ∀ k ∈ t.contents.list, k ∈ s.contents.list ∨ adds k := by
    intro k hk
    rw [hc, Rows.mem_insert] at hk
    rcases hk with hk | rfl
    · exact .inl hk
    · exact .inr hadds
  refine ⟨fun h => ⟨hp ▸ h.inv, hp ▸ h.pinned.mono hkeep, ?_⟩, hkeep, hadded, hr⟩
  intro c hmem d hmem' hsame
  rw [hc, Rows.mem_insert] at hmem hmem'
  rcases hmem with hmem | rfl <;> rcases hmem' with hmem' | rfl
  · exact h.keys c hmem d hmem' hsame
  · exact absurd hsame (hkeys c hmem)
  · exact absurd hsame.symm (hkeys d hmem')
  · rfl

/-- A publication call made from a library transaction. -/
theorem preserves_publicationCall {x : Publications.Env → Publications.Service α} (call : Publications.Call)
    (hx : Tx.exec (x (env.at s)) s.publications = Tx.exec (call.run cfg.publications (env.at s)) s.publications) :
    Tx.Frames (Preserves adds) (publicationCall env x) s := by
  have hsound : ∀ db, db = Tx.exec (x (env.at s)) s.publications → Preserves adds s { s with publications := db } := by
    rintro db rfl
    rw [hx]
    refine ⟨fun h => ⟨(call.steps h.inv).inv h.inv, ?_, h.keys⟩, fun _ _ hk => hk, fun _ hk => .inl hk, rfl⟩
    exact h.pinned.writes (reads_at env s) (call.writes h.inv)
  unfold Tx.Frames Tx.wp publicationCall
  unfold Tx.exec at hsound
  cases hcall : x (env.at s) s.publications with
  | mk r db =>
    rw [hcall] at hsound
    cases r <;> exact hsound db rfl

theorem scopeFilter_scopeKwargs {owner : LibraryOwner} :
    Publications.scopeFilter (scopeKwargs owner).target = .ok (scopeKwargs owner) := by
  cases owner <;> rfl

theorem preserves_lockScope : Tx.Frames (Preserves adds) (lockScope library) s := by
  unfold lockScope
  rw [Tx.frames_get_bind]
  cases hscope : s.publications.scopeWithKey (scopeKwargs library.owner) with
  | some found => exact Tx.frames_pure ()
  | none =>
    refine ⟨fun h => ⟨?_, ?_, h.keys⟩, fun _ _ hk => hk, fun _ hk => .inl hk, rfl⟩
    · refine h.inv.insertScope scopeFilter_scopeKwargs ?_ rfl
      intro i t ht hkey
      have hno := Table.first_eq_none.mp hscope i t ht
      simp only [decide_eq_false_iff_not] at hno
      exact hno hkey
    · exact h.pinned.of_rows rfl (fun hq hn => ⟨_, hq, hn⟩) fun hq hheld => ⟨_, hq, hheld, rfl, rfl⟩

theorem preserves_lockedLibrary (libraryId : ℕ) (permission : Permission) :
    Tx.Frames (Preserves adds) (lockedLibrary env actor libraryId permission) s := by
  unfold lockedLibrary
  refine (frames_getLibrary libraryId).bind fun preview _ _ => ?_
  refine (frames_requireLibraryAccess permission).bind fun _ _ _ => ?_
  refine preserves_lockScope.bind fun _ _ _ => ?_
  refine (frames_getLibrary libraryId).bind fun library _ _ => ?_
  exact (frames_requireLibraryAccess permission).bind fun _ _ _ => Tx.frames_pure _

theorem preserves_libraryMutation {libraryId : ℕ} {permission : Permission} {function : Service α}
    (hf : ∀ t, Tx.Frames (Preserves adds) function t) :
    Tx.Frames (Preserves adds) (libraryMutation env actor libraryId permission function) s := by
  unfold libraryMutation
  refine frames_activeTemporaryAccess.bind fun _ _ _ => ?_
  apply Tx.Frames.handle
  · apply Tx.Frames.toAtomic
    refine (frames_getLibrary libraryId).bind fun library _ _ => ?_
    exact (frames_requireLibraryAccess permission).bind fun _ t _ => hf t
  · intro e y hy t _
    by_cases he : e = .permissionDenied
    · rw [if_pos he] at hy
      obtain rfl := Option.some.inj hy
      exact frames_activeTemporaryAccess.bind fun _ _ _ => Tx.frames_ofExcept (.error e)
    · rw [if_neg he] at hy
      cases hy

theorem preserves_changed : Tx.Frames (Preserves adds) (changed cfg env actor library) s := by
  unfold changed saveLibrary
  refine Tx.Frames.bind ?_ fun _ t _ => ?_
  · refine (Tx.frames_ensure _ _).bind fun _ t _ => ?_
    exact Preserves.of_rows rfl rfl rfl
  · refine Tx.Frames.bind ?_ fun _ _ _ => frames_endDepartmentMutation _
    exact preserves_publicationCall (.markDirty _ _) (Tx.exec_drop _ _).symm

theorem preserves_createEntry {e : Entry} : Tx.Frames (Preserves adds) (createEntry cfg e) s := by
  unfold createEntry
  rw [Tx.frames_get_bind]
  refine (Tx.frames_ensure _ _).bind fun _ _ _ => (Tx.frames_require _ _).bind fun entries t _ => ?_
  exact Preserves.of_rows rfl rfl rfl

theorem preserves_saveEntry {e : Entry} : Tx.Frames (Preserves adds) (saveEntry cfg e) s := by
  unfold saveEntry
  rw [Tx.frames_get_bind]
  refine (Tx.frames_ensure _ _).bind fun _ t _ => ?_
  exact Preserves.of_rows rfl rfl rfl

theorem preserves_createContent {content : Content} (hadds : adds content) :
    Tx.Frames (Preserves adds) (createContent content) s := by
  unfold createContent
  rw [Tx.frames_get_bind]
  refine Tx.frames_bind ((Tx.wp_ensure _ _).mpr ⟨fun hkeys => ⟨refl_of (Preserves adds) s, ?_⟩, fun _ => refl_of (Preserves adds) s⟩)
  refine Tx.frames_bind ((Tx.wp_ensure _ _).mpr ⟨fun _ => ⟨refl_of (Preserves adds) s, ?_⟩, fun _ => refl_of (Preserves adds) s⟩)
  refine Tx.frames_bind ((Tx.wp_require _ _).mpr ⟨fun contents hins => ⟨refl_of (Preserves adds) s, ?_⟩,
    fun _ => refl_of (Preserves adds) s⟩)
  obtain ⟨hn, rfl⟩ := Rows.insert?_eq_some hins
  refine preserves_insert hn (fun c hc => ?_) hadds rfl rfl rfl
  simpa using List.all_eq_true.mp hkeys c hc

theorem preserves_renameLibrary {libraryId : ℕ} {name : String} :
    Tx.Frames (Preserves adds) (renameLibrary cfg env actor libraryId name) s := by
  unfold renameLibrary
  refine preserves_libraryMutation fun t => ?_
  refine (preserves_lockedLibrary libraryId _).bind fun r _ _ => ?_
  refine (Tx.frames_ofExcept _).bind fun name _ _ => ?_
  exact Tx.Frames.whenever _ fun _ => preserves_changed

theorem preserves_createFolder {libraryId : ℕ} {name : String} {parentId : Option ℕ} {id : ℕ} :
    Tx.Frames (Preserves adds) (createFolder cfg env actor libraryId name parentId id) s := by
  unfold createFolder
  refine preserves_libraryMutation fun t => ?_
  refine (preserves_lockedLibrary libraryId _).bind fun r _ _ => ?_
  refine (Tx.frames_ofExcept _).bind fun name u _ => ?_
  rw [Tx.frames_get_bind]
  refine (Tx.frames_ofExcept _).bind fun parent _ _ => (Tx.frames_ofExcept _).bind fun _ _ _ => ?_
  refine preserves_createEntry.bind fun _ _ _ => ?_
  exact preserves_changed.bind fun _ _ _ => Tx.frames_pure _

theorem preserves_editEntry {libraryId entryId : ℕ} {name : Option String} {parentId : Option ℕ} {move : Bool} :
    Tx.Frames (Preserves adds) (editEntry cfg env actor libraryId entryId name parentId move) s := by
  unfold editEntry
  refine preserves_libraryMutation fun t => ?_
  refine (preserves_lockedLibrary libraryId _).bind fun r u _ => ?_
  rw [Tx.frames_get_bind]
  refine (Tx.frames_ofExcept _).bind fun entry _ _ => (Tx.frames_ofExcept _).bind fun newName _ _ => ?_
  refine (Tx.frames_ofExcept _).bind fun parent _ _ => (Tx.frames_ofExcept _).bind fun _ _ _ => ?_
  dsimp only
  split
  · exact Tx.frames_pure _
  · refine preserves_saveEntry.bind fun _ _ _ => ?_
    exact preserves_changed.bind fun _ _ _ => Tx.frames_pure _

theorem preserves_deleteEntry {libraryId entryId : ℕ} :
    Tx.Frames (Preserves adds) (deleteEntry cfg env actor libraryId entryId) s := by
  unfold deleteEntry
  refine preserves_libraryMutation fun t => ?_
  refine (preserves_lockedLibrary libraryId _).bind fun r u _ => ?_
  rw [Tx.frames_get_bind]
  refine (Tx.frames_ofExcept _).bind fun entry _ _ => (Tx.frames_ofExcept _).bind fun levels v _ => ?_
  refine Tx.Frames.bind (Preserves.of_rows rfl rfl rfl) fun _ _ _ => ?_
  refine preserves_changed.bind fun _ _ _ => ?_
  cases r.2 with
  | temporary => exact (frames_revokeTemporaryAccess _).bind fun _ _ _ => Tx.frames_pure _
  | normal => exact (Tx.frames_pure ()).bind fun _ _ _ => Tx.frames_pure _

theorem preserves_writeUpload {entry parent : Option Entry} {name : String} {upload : Upload} {content : Content}
    (hadds : adds content) :
    Tx.Frames (Preserves adds) (writeUpload cfg actor library entry parent name upload content) s := by
  unfold writeUpload
  refine (preserves_createContent hadds).bind fun _ _ _ => ?_
  cases entry with
  | none => exact preserves_createEntry.bind fun _ _ _ => Tx.frames_pure _
  | some entry => exact preserves_saveEntry.bind fun _ _ _ => Tx.frames_pure _

/-- The content row of an accepted upload. -/
def Upload.content (upload : Upload) (library size : ℕ) (digest : Publications.Digest) : Content :=
  { id := upload.contentId, library := library, storageKey := upload.storageKey library, sizeBytes := size
    sha256 := digest }

theorem preserves_acceptUpload {libraryId : ℕ} {name : String} {upload : Upload} {size : ℕ}
    {digest : Publications.Digest} (hadds : adds (upload.content libraryId size digest)) :
    Tx.Frames (Preserves adds) (acceptUpload cfg env actor libraryId name upload size digest) s := by
  unfold acceptUpload
  apply Tx.Frames.toAtomic
  refine Tx.frames_bind (Tx.wp_mono (Tx.wp_and (preserves_lockedLibrary libraryId _) (wp_lockedLibrary libraryId _)) ?_
    fun _ _ h => h.1)
  rintro ⟨library, access⟩ t ⟨hlocked, -, hfound⟩
  obtain rfl : library.id = libraryId := Rows.key_of_find hfound
  refine ⟨hlocked, ?_⟩
  rw [Tx.frames_get_bind]
  refine (Tx.frames_ofExcept _).bind fun entry _ _ => (Tx.frames_ensure _ _).bind fun _ _ _ => ?_
  refine (Tx.frames_ofExcept _).bind fun parent _ _ => (Tx.frames_ofExcept _).bind fun _ _ _ => ?_
  refine frames_quotaBytes.bind fun quota _ _ => (Tx.frames_ensure _ _).bind fun _ _ _ => ?_
  refine (Tx.frames_ofExcept _).bind fun _ _ _ => (preserves_writeUpload hadds).bind fun _ _ _ => ?_
  exact preserves_changed.bind fun _ _ _ => Tx.frames_pure _

theorem preserves_uploadPdf {libraryId : ℕ} {upload : Upload} : Tx.Frames
    (Preserves fun content => content.storageKey = upload.storageKey libraryId) (uploadPdf cfg env actor libraryId upload) s := by
  unfold uploadPdf
  refine frames_activeTemporaryAccess.bind fun _ _ _ => (frames_getLibrary libraryId).bind fun library _ _ => ?_
  refine (Tx.frames_ofExcept _).bind fun _ _ _ => (Tx.frames_ofExcept _).bind fun name _ _ => ?_
  refine (Tx.frames_ensure _ _).bind fun _ _ _ => (Tx.frames_ensure _ _).bind fun _ _ _ => ?_
  refine (Tx.frames_ofExcept _).bind fun prepared _ _ => (Tx.frames_ensure _ _).bind fun _ _ _ => ?_
  exact preserves_acceptUpload rfl

theorem preserves_libraryFor {owner : LibraryOwner} {id : ℕ} : Tx.Frames (Preserves adds) (libraryFor owner id) s := by
  unfold libraryFor
  rw [Tx.frames_get_bind]
  split
  · exact Tx.frames_pure _
  · refine (Tx.frames_require _ _).bind fun libraries _ _ => ?_
    exact Tx.Frames.bind (Preserves.of_rows rfl rfl rfl) fun _ _ _ => Tx.frames_pure _

theorem preserves_initializeLibrary : Tx.Frames (Preserves adds) (initializeLibrary cfg env library) s := by
  unfold initializeLibrary
  apply Tx.Frames.toAtomic
  refine preserves_lockScope.bind fun _ t _ => ?_
  rw [Tx.frames_get_bind]
  refine (Tx.frames_require _ _).bind fun found u _ => ?_
  refine Tx.Frames.whenever _ fun _ => Tx.Frames.bind ?_ fun _ _ _ => Tx.frames_pure _
  exact preserves_publicationCall (.enqueuePublicationJob _) (Tx.exec_drop _ _).symm

theorem preserves_openLibrary {owner : LibraryOwner} {id : ℕ} :
    Tx.Frames (Preserves adds) (openLibrary cfg env actor owner id) s := by
  unfold openLibrary
  apply Tx.Frames.toAtomic
  refine (Tx.frames_ofExcept _).bind fun _ _ _ => preserves_libraryFor.bind fun library _ _ => ?_
  exact preserves_initializeLibrary.bind fun _ _ _ => Tx.frames_pure _

theorem preserves_activateTemporaryAccess {station libraryId : ℕ} :
    Tx.Frames (Preserves adds) (activateTemporaryAccess cfg env actor station libraryId) s := by
  unfold activateTemporaryAccess
  apply Tx.Frames.toAtomic
  refine (Tx.frames_require _ _).bind fun department _ _ => (Tx.frames_ensure _ _).bind fun _ _ _ => ?_
  refine frames_activeTemporaryAccess.bind fun previous t _ => ?_
  have hgrant : ∀ {u : State}, Tx.Frames (Preserves adds) (do
      let s ← Tx.get
      Tx.ensure (s.openAccess actor = none) (.integrityError "one_active_temporary_station_access")
      let now := env.publications.now
      let access : TemporaryStationAccess :=
        { user := actor, department := department, station := station, activatedAt := now
          expiresAt := now + temporaryAccessDuration }
      Tx.modify fun t => { t with accesses := t.accesses.insert access }
      let library ← libraryFor (.station ⟨station, department⟩) libraryId
      initializeLibrary cfg env library
      return s.accesses.nextId : Service ℕ) u := by
    intro u
    rw [Tx.frames_get_bind]
    refine (Tx.frames_ensure _ _).bind fun _ v _ => ?_
    refine Tx.Frames.bind (Bookkeeping.accesses v _) fun _ _ _ => ?_
    refine preserves_libraryFor.bind fun library _ _ => ?_
    exact preserves_initializeLibrary.bind fun _ _ _ => Tx.frames_pure _
  cases previous with
  | none => exact hgrant
  | some found =>
    dsimp only
    split
    · exact Tx.frames_pure _
    · exact (frames_revokeAccess _ _).bind fun _ _ _ => hgrant

theorem preserves_setDepartmentQuotas {department : Publications.DepartmentId} {departmentFiles stationFiles : Option ℕ} :
    Tx.Frames (Preserves adds) (setDepartmentQuotas cfg env actor department departmentFiles stationFiles) s := by
  unfold setDepartmentQuotas
  apply Tx.Frames.toAtomic
  refine (Tx.frames_ensure _ _).bind fun _ _ _ => (Tx.frames_ofExcept _).bind fun _ _ _ => ?_
  refine (frames_quotaPolicy department).bind fun policy t _ => ?_
  refine Tx.Frames.whenever _ fun _ => ?_
  refine Tx.Frames.bind (Bookkeeping.quotas t _) fun _ _ _ => ?_
  exact (frames_revokeTemporaryAccess _).bind fun _ _ _ => Tx.frames_pure _

/-! ### Collection -/

/-- Neither an entry nor a pin references a content. -/
def State.Unreferenced (s : State) (content : ℕ) : Prop :=
  (∀ e ∈ s.entries.list, e.content ≠ some content) ∧
    ∀ pin ∈ s.publications.documents.contents, pin.content.id ≠ content

/-- The state after a collection. -/
def State.collected (s : State) (content : Content) : State :=
  { s with
    contents := s.contents.delete fun c => c.id = content.id
    removals := s.removals ++ [content.storageKey] }

theorem wp_collectContent {id : ℕ} : Tx.wp (collectContent id)
    (fun _ t => t = s ∨ ∃ k, s.contents.find id = some k ∧ s.Unreferenced id ∧ t = s.collected k)
    (fun _ t => t = s) s := by
  unfold collectContent
  simp only [Tx.wp_atomic, Tx.wp_bind, Tx.wp_get, Tx.wp_require, Tx.wp_ite, Tx.wp_pure, Tx.wp_modify]
  refine ⟨fun k hk => ⟨fun _ => .inl trivial, fun hfree => .inr ⟨k, hk, ?_, rfl⟩⟩, fun _ => trivial⟩
  have hid : k.id = id := Rows.key_of_find hk
  rw [not_or, hid] at hfree
  exact ⟨fun e he hec => hfree.1 ⟨e, he, hec⟩, fun pin hpin hpc => hfree.2 ⟨pin, hpin, hpc⟩⟩

theorem State.find_collected {content : Content} (c : ℕ) :
    (s.collected content).contents.find c = (s.contents.find c).filter fun k => !decide (k.id = content.id) :=
  Rows.find_delete c

theorem Sound.collected (h : Sound s) {id : ℕ} {content : Content} (hk : s.contents.find id = some content)
    (hfree : s.Unreferenced id) : Sound (s.collected content) where
  inv := h.inv
  pinned := by
    refine ⟨fun pin hpin => ?_, h.pinned.attempt, h.pinned.frozen⟩
    have hne := hfree.2 pin hpin
    rw [State.find_collected, h.pinned.stored pin hpin, Option.filter_some, if_pos]
    simp only [Bool.not_eq_true', decide_eq_false_iff_not]
    rw [Rows.key_of_find hk]
    exact hne
  keys c hc d hd hsame := h.keys c (Rows.mem_delete.mp hc).1 d (Rows.mem_delete.mp hd).1 hsame

/-- What one call does to the contents and the stored PDFs. -/
inductive Keeps (adds : Content → Prop) (s t : State) : Prop
  | preserved (h : Preserves adds s t)
  | collected {id : ℕ} {content : Content} (hk : s.contents.find id = some content) (hfree : s.Unreferenced id)
      (ht : t = s.collected content)

theorem Call.keeps (call : Call) : Keeps call.adds s (Tx.exec (call.run cfg env) s) := by
  have hdrop : ∀ {β : Type} {x : Service β} {adds : Content → Prop}, Tx.Frames (Preserves adds) x s →
      Keeps adds s (Tx.exec (do let _ ← x : Service Unit) s) :=
    fun hx => .preserved (hx.bind fun _ _ _ => Tx.frames_pure ()).exec
  cases call with
  | renameLibrary actor library name => exact .preserved preserves_renameLibrary.exec
  | createFolder actor library name parent id => exact hdrop preserves_createFolder
  | editEntry actor library entry name parent move => exact hdrop preserves_editEntry
  | deleteEntry actor library entry => exact hdrop preserves_deleteEntry
  | uploadPdf actor library upload => exact hdrop preserves_uploadPdf
  | openLibrary actor owner id => exact hdrop preserves_openLibrary
  | activateTemporaryAccess actor station library => exact hdrop preserves_activateTemporaryAccess
  | revokeTemporaryAccess actor reason => exact hdrop (frames_revokeTemporaryAccess reason)
  | setDepartmentQuotas actor department departmentFiles stationFiles =>
    exact .preserved preserves_setDepartmentQuotas.exec
  | publication call =>
    have hcall : Tx.Frames (Preserves fun _ => False) (publicationCall env fun e => call.run cfg.publications e) s :=
      preserves_publicationCall call rfl
    exact .preserved hcall.exec
  | collectContent content =>
    refine Tx.exec_of_wp (P := fun t => Keeps _ s t) ?_
    have hsame : Keeps (Call.adds (.collectContent content)) s s := .preserved (refl_of (Preserves _) s)
    refine Tx.wp_bind.mpr (Tx.wp_mono wp_collectContent (fun _ t ht => ?_) (fun _ t ht => ht ▸ hsame))
    rcases ht with rfl | ⟨k, hk, hfree, ht⟩
    · exact hsame
    · exact .collected hk hfree ht

theorem Keeps.sound (h : Keeps adds s t) (hs : Sound s) : Sound t := by
  cases h with
  | preserved h => exact h.sound hs
  | collected hk hfree ht => exact ht ▸ hs.collected hk hfree

theorem Sound.initial : Sound {} where
  inv := by constructor <;> simp [Publications.Db.core, Table.find]
  pinned := by constructor <;> simp [Table.find]
  keys := by simp

/-- What holds of the contents and their pins in a state. -/
structure Pinning (cfg : Config) (s : State) : Prop where
  resolves : ∀ {id p}, s.publications.publications.find id = some p →
    p.status ∈ [.building, .readyForReview, .published, .superseded] →
    p.key.target.datasetTypeCode.isFileDataset = true →
    ∃ snapshot documents, p.sourceSnapshot = some (.fileLibrary snapshot) ∧
      Publications.frozenFiles s.publications.documents id p = .ok documents ∧
      List.Forall₂ (Resolves s.contents) snapshot.documents documents
  collected : ∀ env (call : Call) c k, s.contents.find c = some k →
    (Tx.exec (call.run cfg env) s).contents.find c ≠ some k → s.Unreferenced c
  removed : ∀ env (call : Call), (Tx.exec (call.run cfg env) s).removals = s.removals ∨
    ∃ c k, s.contents.find c = some k ∧ s.Unreferenced c ∧
      (Tx.exec (call.run cfg env) s).removals = s.removals ++ [k.storageKey] ∧
      ∀ d ∈ (Tx.exec (call.run cfg env) s).contents.list, d.storageKey ≠ k.storageKey

theorem Sound.pinning (h : Sound s) : Pinning cfg s where
  resolves {id p} hp hst hfile := by
    refine h.pinned.frozenFiles hp ?_ hfile
    revert hst
    cases p.status <;> decide
  collected env call c k hk hgone := by
    cases @Call.keeps cfg env s call with
    | preserved hkeep => exact absurd (hkeep.contents c k hk) hgone
    | @collected id content hk' hfree ht =>
      rw [ht, State.find_collected, hk, Option.filter_some] at hgone
      by_cases hid : k.id = content.id
      · rw [Rows.key_of_find hk, Rows.key_of_find hk'] at hid
        rw [hid]
        exact hfree
      · rw [if_pos (by simpa using hid)] at hgone
        exact absurd rfl hgone
  removed env call := by
    cases @Call.keeps cfg env s call with
    | preserved hkeep => exact .inl hkeep.removals
    | @collected id content hk hfree ht =>
      refine .inr ⟨id, content, hk, hfree, by rw [ht]; rfl, fun d hd hsame => ?_⟩
      rw [ht] at hd
      obtain ⟨hmem, hother⟩ := Rows.mem_delete.mp hd
      rw [h.keys d hmem content (Rows.mem_of_find hk) hsame] at hother
      simp at hother

theorem sound_of_reachable (h : (machine cfg).Reachable s) : Sound s := by
  refine h.invariant (I := fun s => Sound s) ?_ ?_
  · rintro s rfl
    exact .initial
  · rintro s ⟨env, call⟩ t hs rfl
    exact call.keeps.sound hs

/-- After any sequence of calls, a content and its PDF are collected only when neither an entry
nor a pin references it, and a held file publication resolves every document it froze. -/
theorem pinning_of_reachable (h : (machine cfg).Reachable s) : Pinning cfg s :=
  (sound_of_reachable h).pinning

/-- A document that is deleted while its claimed publication is built; the collector keeps it. -/
def claimedCalls : List (Env × Call) :=
  [ (sampleEnv, .openLibrary 7 (.department 1) 1),
    (sampleEnv, .uploadPdf 7 1 { name := "a.pdf", size := 5, contentId := 20, documentId := 21, prepared := .ok (5, 0) }),
    (sampleEnv, .publication (.claimJob 0)),
    (sampleEnv, .deleteEntry 7 1 21),
    (sampleEnv, .collectContent 20) ]

theorem sampleLibrary_pinning :
    (runCalls sampleConfig {} claimedCalls).entries.list = [] ∧
    (runCalls sampleConfig {} claimedCalls).contents.list.map (·.id) = [20] ∧
    (runCalls sampleConfig {} claimedCalls).publications.publications.rows.map (·.status) = [.building] ∧
    Pinning sampleConfig (runCalls sampleConfig {} claimedCalls) :=
  ⟨by decide +kernel, by decide +kernel, by decide +kernel,
    pinning_of_reachable (reachable_runCalls (.init rfl) claimedCalls)⟩

end

end FireDash.FileLibrary
