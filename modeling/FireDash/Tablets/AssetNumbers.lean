import FireDash.Tablets.Frames
import FireDash.Tablets.Installations

/-! The allocator of asset numbers: the first unused number after the stored sequence, and none twice. -/
namespace FireDash.Tablets

open Json (Text)
open Publications (Time DepartmentId)
open Delivery (TabletId)

variable {settings : Settings} {s t : Registry} {action : Action}

/-! ### Formatted numbers -/

/-- The number of a place in the sequence, whether it fits or not. -/
def TabletPolicy.number (policy : TabletPolicy) (sequence : ℕ) : Text :=
  policy.assetNumberPrefix ++ zfill sequence policy.assetNumberWidth

theorem zfill_eq (sequence width : ℕ) :
    zfill sequence width = (List.replicate (width - (Nat.toDigits 10 sequence).length) '0' ++ Nat.toDigits 10 sequence).map Char.toNat := by
  have hdigits : Json.text (toString sequence) = (Nat.toDigits 10 sequence).map Char.toNat := by
    rw [Json.text, Nat.toString_eq_ofList_toDigits, String.toList_ofList]
  unfold zfill
  dsimp only
  rw [hdigits, List.length_map, List.map_append, List.map_replicate]
  rfl

/-- Padding loses nothing: the digits are read back as the place in the sequence. -/
theorem zfill_injective {m n width : ℕ} (h : zfill m width = zfill n width) : m = n := by
  have hread : ∀ k, Nat.ofDigitChars 10 (List.replicate (width - (Nat.toDigits 10 k).length) '0' ++ Nat.toDigits 10 k) 0 = k := by
    intro k
    rw [Nat.ofDigitChars_append, Nat.ofDigitChars_replicate_zero, Nat.mul_zero, Nat.ofDigitChars_ten_toDigits]
  rw [zfill_eq, zfill_eq] at h
  have hchars := (List.map_injective_iff.mpr fun a b hab => Char.toNat_inj.mp hab) h
  rw [← hread m, hchars, hread n]

theorem TabletPolicy.number_injective {policy : TabletPolicy} {m n : ℕ} (h : policy.number m = policy.number n) : m = n :=
  zfill_injective (List.append_cancel_left h)

theorem formattedAssetNumber_eq_ok {policy : TabletPolicy} {sequence : ℕ} {number : Text}
    (h : formattedAssetNumber policy sequence = .ok number) : number = policy.number sequence := by
  unfold formattedAssetNumber at h
  dsimp only at h
  split at h
  · cases h
  · exact (pure_eq_ok.mp h).symm

/-! ### One allocation -/

/-- The number allocated to a tablet: the first one after the stored sequence that no tablet has. -/
structure Allocated (s : Registry) (department : DepartmentId) (policy : TabletPolicy) (sequence : ℕ) : Prop where
  following : policy.assetNumberSequence < sequence
  unused : s.labelTaken department (fun l => l.assetNumber = policy.number sequence) = false
  skipped : ∀ k, policy.assetNumberSequence < k → k < sequence →
    s.labelTaken department (fun l => l.assetNumber = policy.number k) = true

/-- The state an allocation leaves. -/
def Registry.allocated (s : Registry) (department : DepartmentId) (displayName : Text) (policy : TabletPolicy) (sequence : ℕ) :
    Registry :=
  { s.insertTablet department ⟨displayName, policy.number sequence⟩ with
    policies := s.policies.modify department fun _ => { policy with assetNumberSequence := sequence } }

theorem createGeneratedTablet_allocates {department : DepartmentId} {displayName : Text} {policy : TabletPolicy} {attempts : ℕ}
    (h : s.createGeneratedTablet department displayName policy attempts = .ok t) :
    ∃ sequence, Allocated s department policy sequence ∧ t = s.allocated department displayName policy sequence := by
  induction attempts generalizing policy with
  | zero => cases h
  | succ attempts ih =>
    simp only [Registry.createGeneratedTablet, bind_eq_ok] at h
    obtain ⟨number, hnumber, h⟩ := h
    obtain rfl := formattedAssetNumber_eq_ok hnumber
    split at h
    · -- The next number is taken, and the rest of the attempts start behind it.
      rename_i htaken
      obtain ⟨sequence, hallocated, rfl⟩ := ih h
      have hbehind : policy.assetNumberSequence + 1 < sequence := hallocated.following
      refine ⟨sequence, ⟨by omega, hallocated.unused, fun k hk hlt => ?_⟩, rfl⟩
      by_cases hnext : k = policy.assetNumberSequence + 1
      · rw [hnext]
        exact htaken
      · have hbeyond : policy.assetNumberSequence + 1 < k := by omega
        exact hallocated.skipped k hbeyond hlt
    · rename_i hunused
      cases h
      refine ⟨policy.assetNumberSequence + 1, ⟨by omega, ?_, fun k hk hlt => by omega⟩, rfl⟩
      exact Bool.not_eq_true _ ▸ hunused

/-- A registration under an automatic policy allocates a number; another one leaves the policies alone. -/
theorem createTablet_eq_ok {admin : DepartmentId → Bool} {department : DepartmentId} {displayName assetNumber : Text}
    (h : s.createTablet admin department displayName assetNumber = .ok t) :
    ∃ policy, s.policies.find department = some policy ∧
      (policy.autoEnabled = true ∧ (∃ sequence, Allocated s department policy sequence ∧
          t = s.allocated department (strip displayName) policy sequence) ∨
        policy.autoEnabled = false ∧ t = s.insertTablet department ⟨strip displayName, strip assetNumber⟩) := by
  simp only [Registry.createTablet, bind_eq_ok, check_eq_ok] at h
  obtain ⟨-, -, policy, hpolicy, -, -, -, h⟩ := h
  refine ⟨policy, found_eq_ok.mp hpolicy, ?_⟩
  split at h
  · rename_i hauto
    exact .inl ⟨hauto, createGeneratedTablet_allocates h⟩
  · rename_i hauto
    split at h
    · cases h
    · cases h
      exact .inr ⟨Bool.not_eq_true _ ▸ hauto, rfl⟩

/-! ### Every run -/

/-- The sequence is none of the settings of a department. -/
def KeepsSequences (s : Registry) : Action → Prop
  | .editDepartments _ policies _ _ => ∀ id policy, s.policies.find id = some policy →
      ∃ edited, policies.find id = some edited ∧ edited.assetNumberSequence = policy.assetNumberSequence
  | _ => True

/-- The tablet system whose departments are edited through their settings. -/
def numbering (settings : Settings) : Machine Registry Action where
  init s := (tabletSystem settings).init s
  step s action t := KeepsSequences s action ∧ t = s.step settings action

/-- A successful registration that generates the number of its tablet. -/
structure Generates (settings : Settings) (s t : Registry) (department : DepartmentId) (policy : TabletPolicy) (number : Text) :
    Prop where
  row : s.policies.find department = some policy
  automatic : policy.autoEnabled = true
  registered : ∃ admin displayName assetNumber, s.run settings (.createTablet admin department displayName assetNumber) = .ok t
  number : ∃ label, t.labels.find s.fleet.tablets.nextId = some label ∧ label.assetNumber = number

/-- Labels lie under the keys of their tablets. -/
def Aligned (s : Registry) : Prop := s.labels.nextId = s.fleet.tablets.nextId

def SequencesGrow (s t : Registry) : Prop := ∀ id policy, s.policies.find id = some policy →
  ∃ later, t.policies.find id = some later ∧ policy.assetNumberSequence ≤ later.assetNumberSequence

theorem SequencesGrow.refl (s : Registry) : SequencesGrow s s := fun _ policy h => ⟨policy, h, le_rfl⟩

theorem SequencesGrow.trans {u : Registry} (h : SequencesGrow s t) (h' : SequencesGrow t u) : SequencesGrow s u := by
  intro id policy hp
  obtain ⟨later, hlater, hle⟩ := h id policy hp
  obtain ⟨last, hlast, hle'⟩ := h' id later hlater
  exact ⟨last, hlast, hle.trans hle'⟩

theorem allocated_policy {department : DepartmentId} {displayName : Text} {policy : TabletPolicy} {sequence : ℕ}
    (hpolicy : s.policies.find department = some policy) :
    (s.allocated department displayName policy sequence).policies.find department =
      some { policy with assetNumberSequence := sequence } := by
  change (s.policies.modify department _).find department = _
  rw [Table.find_modify, if_pos rfl, hpolicy]
  rfl

/-- A step registers one tablet with its label or none, and sequences only grow. -/
theorem run_numbers (hi : Publications.Inv s.delivery.db.core) (hs : Aligned s) (haction : KeepsSequences s action)
    (h : s.run settings action = .ok t) : Aligned t ∧ SequencesGrow s t := by
  have hsame : t.labels = s.labels → t.fleet.tablets.nextId = s.fleet.tablets.nextId → t.policies = s.policies →
      Aligned t ∧ SequencesGrow s t := by
    intro hlabels htablets hpolicies
    refine ⟨?_, fun id policy hp => ⟨policy, hpolicies ▸ hp, le_rfl⟩⟩
    unfold Aligned
    rw [hlabels, htablets]
    exact hs
  have hother : action.contacted = none → action.editsDepartments = false → action.registers = false →
      Aligned t ∧ SequencesGrow s t := by
    intro hcontact hedit hregister
    have hundisturbed := run_undisturbed hi h hcontact hedit hregister
    exact hsame hundisturbed.labels hundisturbed.tablets hundisturbed.policies
  cases action with
  | checkIn id credential appVersion minimum =>
    simp only [Registry.run, Registry.checkIn, bind_eq_ok, pure_eq_ok] at h
    obtain ⟨a, -, b, -, rfl⟩ := h
    exact hsame rfl rfl rfl
  | refreshInstallationLease id credential appVersion minimum =>
    simp only [Registry.run, Registry.refreshInstallationLease, bind_eq_ok, pure_eq_ok] at h
    obtain ⟨a, -, b, -, rfl⟩ := h
    exact hsame rfl rfl rfl
  | editDepartments departments policies features minimumAppVersion =>
    simp only [Registry.run] at h
    split at h
    · cases h
      refine ⟨hs, fun id policy hp => ?_⟩
      obtain ⟨edited, hedited, heq⟩ := haction id policy hp
      exact ⟨edited, hedited, heq.ge⟩
    · cases h
  | createTablet admin department displayName assetNumber =>
    have hinserted : ∀ label, (s.labels.insert label).nextId = (s.fleet.tablets.insert { department := department }).nextId := by
      intro label
      rw [Table.nextId_insert, Table.nextId_insert, show s.labels.nextId = _ from hs]
    obtain ⟨policy, hpolicy, ⟨-, sequence, hallocated, rfl⟩ | ⟨-, rfl⟩⟩ := createTablet_eq_ok h
    · refine ⟨hinserted _, fun id p hp => ?_⟩
      by_cases hid : id = department
      · subst hid
        obtain rfl : policy = p := Option.some.inj (hpolicy.symm.trans hp)
        exact ⟨_, allocated_policy hpolicy, hallocated.following.le⟩
      · refine ⟨p, ?_, le_rfl⟩
        change (s.policies.modify department _).find id = some p
        rw [Table.find_modify, if_neg (Ne.symm hid)]
        exact hp
    · exact ⟨hinserted _, .refl s⟩
  | _ => exact hother rfl rfl rfl

theorem step_numbers (hi : Publications.Inv s.delivery.db.core) (hs : Aligned s) (haction : KeepsSequences s action) :
    Aligned (s.step settings action) ∧ SequencesGrow s (s.step settings action) := by
  unfold Registry.step
  cases h : s.run settings action with
  | ok t => exact run_numbers hi hs haction h
  | error e => exact ⟨hs, .refl s⟩

theorem numbering_reachable (h : (numbering settings).Reachable s) : (tabletSystem settings).Reachable s ∧ Aligned s := by
  obtain ⟨s₀, trace, hrun⟩ := h
  induction hrun with
  | start h =>
    refine ⟨.init h, ?_⟩
    obtain ⟨-, -, -, htablets, -, -, hlabels, -⟩ := h
    unfold Aligned
    rw [htablets, hlabels]
    rfl
  | @next t t' trace action hrun hstep ih =>
    obtain ⟨hreach, haligned⟩ := ih
    obtain ⟨haction, rfl⟩ := hstep
    exact ⟨hreach.next rfl, (step_numbers (sound_of_reachable hreach).1 haligned haction).1⟩

theorem sequences_later (h : (numbering settings).Reachable s) (hst : (numbering settings).Later s t) :
    (numbering settings).Reachable t ∧ SequencesGrow s t := by
  refine h.later (R := SequencesGrow) .refl SequencesGrow.trans ?_ hst
  rintro s action t hreach ⟨haction, rfl⟩
  obtain ⟨htablets, haligned⟩ := numbering_reachable hreach
  exact (step_numbers (sound_of_reachable htablets).1 haligned haction).2

/-- What a generated number is: the first unused one after the stored sequence, which moves on to it. -/
theorem Generates.allocated (haligned : Aligned s) {department : DepartmentId} {policy : TabletPolicy} {number : Text}
    (h : Generates settings s t department policy number) :
    ∃ sequence displayName, number = policy.number sequence ∧ Allocated s department policy sequence ∧
      t = s.allocated department displayName policy sequence := by
  obtain ⟨admin, displayName, assetNumber, hrun⟩ := h.registered
  obtain ⟨label, hlabel, rfl⟩ := h.number
  obtain ⟨p, hp, ⟨-, sequence, hallocated, rfl⟩ | ⟨hmanual, -⟩⟩ := createTablet_eq_ok hrun
  · obtain rfl : policy = p := Option.some.inj (h.row.symm.trans hp)
    refine ⟨sequence, strip displayName, ?_, hallocated, rfl⟩
    change (s.labels.insert _).find s.fleet.tablets.nextId = some label at hlabel
    rw [show s.fleet.tablets.nextId = s.labels.nextId from haligned.symm, Table.find_insert, if_pos rfl] at hlabel
    cases hlabel
    rfl
  · obtain rfl : policy = p := Option.some.inj (h.row.symm.trans hp)
    rw [h.automatic] at hmanual
    cases hmanual

/-- The registered tablet is the only one of its department with the number. -/
theorem unique_allocated (haligned : Aligned s) {department : DepartmentId} {displayName : Text} {policy : TabletPolicy}
    {sequence : ℕ} (hallocated : Allocated s department policy sequence) {id : TabletId} {tablet : Delivery.Tablet}
    {label : TabletLabel}
    (htablet : (s.allocated department displayName policy sequence).fleet.tablets.find id = some tablet)
    (hdepartment : tablet.department = department)
    (hlabel : (s.allocated department displayName policy sequence).labels.find id = some label)
    (hnumber : label.assetNumber = policy.number sequence) : id = s.fleet.tablets.nextId := by
  by_contra hne
  change (s.fleet.tablets.insert _).find id = some tablet at htablet
  change (s.labels.insert _).find id = some label at hlabel
  rw [Table.find_insert, if_neg hne] at htablet
  have hne' : id ≠ s.labels.nextId := by
    rw [show s.labels.nextId = _ from haligned]
    exact hne
  rw [Table.find_insert, if_neg hne'] at hlabel
  have htaken : s.labelTaken department (fun l => l.assetNumber = policy.number sequence) = true := by
    refine List.any_eq_true.mpr ⟨(id, tablet), Table.mem_entries.mpr htablet, ?_⟩
    simp [hdepartment, hlabel, hnumber]
  rw [hallocated.unused] at htaken
  cases htaken

/-- In every run whose departments keep their sequences: a generated number is the first of the formatted
ones after the stored sequence that no tablet of the department has, and then its tablet's alone; the
sequence moves on to it and never goes back; no number is generated twice under one prefix and width;
and a registration that fails changes nothing. -/
theorem asset_numbers (h : (numbering settings).Reachable s) :
    (∀ t department policy number, Generates settings s t department policy number → ∃ sequence,
      number = policy.number sequence ∧ Allocated s department policy sequence ∧
      (∃ tablet, t.fleet.tablets.find s.fleet.tablets.nextId = some tablet ∧ tablet.department = department) ∧
      (∀ id tablet label, t.fleet.tablets.find id = some tablet → tablet.department = department →
        t.labels.find id = some label → label.assetNumber = number → id = s.fleet.tablets.nextId) ∧
      t.policies.find department = some { policy with assetNumberSequence := sequence }) ∧
    (∀ t, (numbering settings).Later s t → SequencesGrow s t) ∧
    (∀ t u v department policy policy' number number', Generates settings s t department policy number →
      (numbering settings).Later t u → Generates settings u v department policy' number' →
      policy'.assetNumberPrefix = policy.assetNumberPrefix → policy'.assetNumberWidth = policy.assetNumberWidth →
      number' ≠ number) ∧
    ∀ admin department displayName assetNumber e,
      s.run settings (.createTablet admin department displayName assetNumber) = .error e →
      s.step settings (.createTablet admin department displayName assetNumber) = s := by
  obtain ⟨hreach, haligned⟩ := numbering_reachable h
  refine ⟨?_, fun t hst => (sequences_later h hst).2, ?_, ?_⟩
  · intro t department policy number hgenerates
    obtain ⟨sequence, displayName, rfl, hallocated, rfl⟩ := hgenerates.allocated haligned
    refine ⟨sequence, rfl, hallocated, ⟨{ department := department }, ?_, rfl⟩, ?_, allocated_policy hgenerates.row⟩
    · change (s.fleet.tablets.insert _).find s.fleet.tablets.nextId = _
      rw [Table.find_insert, if_pos rfl]
    · exact fun id tablet label htablet hdepartment hlabel hnumber =>
        unique_allocated haligned hallocated htablet hdepartment hlabel hnumber
  · intro t u v department policy policy' number number' hfirst hlater hsecond hprefix hwidth heq
    obtain ⟨admin, name, given, hrun⟩ := hfirst.registered
    have hstep : (numbering settings).step s (.createTablet admin department name given) t := by
      refine ⟨trivial, ?_⟩
      unfold Registry.step
      rw [hrun]
    obtain ⟨m, displayName, rfl, -, rfl⟩ := hfirst.allocated haligned
    obtain ⟨hu, hgrow⟩ := sequences_later (h.next hstep) hlater
    obtain ⟨n, displayName', rfl, hallocated, -⟩ := hsecond.allocated (numbering_reachable hu).2
    obtain ⟨stored, hstored, hle⟩ := hgrow department _ (allocated_policy hfirst.row)
    obtain rfl : policy' = stored := Option.some.inj (hsecond.row.symm.trans hstored)
    -- The second number stands behind the first one in the sequence.
    have hlt : m < n := Nat.lt_of_le_of_lt hle hallocated.following
    have hsame : policy'.number = policy.number := by
      funext k
      rw [TabletPolicy.number, TabletPolicy.number, hprefix, hwidth]
    rw [hsame] at heq
    have := TabletPolicy.number_injective heq
    omega
  · intro admin department displayName assetNumber e herror
    unfold Registry.step
    rw [herror]

/-- Number 2 is entered by hand before department 1 numbers its tablets, of which the first gets number 1. -/
def numberedTablets : List Action :=
  [.createTablet (fun _ => true) 1 [65] [50],
    .editDepartments ⟨[{}, {}]⟩ ⟨[{}, { autoEnabled := true }]⟩ [] none, .createTablet (fun _ => true) 1 [66] []]

theorem numbering_next (h : (numbering settings).Reachable s) (action : Action) (haction : KeepsSequences s action) :
    (numbering settings).Reachable (s.step settings action) := h.next ⟨haction, rfl⟩

theorem numbering_sample : (numbering sampleSettings).Reachable (sampleRun numberedTablets) := by
  have hstart : (numbering sampleSettings).Reachable sampleRegistry := .init init_sampleRegistry
  have hmanual := numbering_next hstart (.createTablet (fun _ => true) 1 [65] [50]) trivial
  have hpolicies : (sampleRegistry.step sampleSettings (.createTablet (fun _ => true) 1 [65] [50])).policies =
      ⟨[{}, {}]⟩ := by decide +kernel
  have hkeeps : KeepsSequences (sampleRegistry.step sampleSettings (.createTablet (fun _ => true) 1 [65] [50]))
      (.editDepartments ⟨[{}, {}]⟩ ⟨[{}, { autoEnabled := true }]⟩ [] none) := by
    intro id policy hp
    rw [hpolicies] at hp
    rcases id with _ | _ | n
    · cases hp
      exact ⟨{}, rfl, rfl⟩
    · cases hp
      exact ⟨{ autoEnabled := true }, rfl, rfl⟩
    · cases hp
  exact numbering_next (numbering_next hmanual _ hkeeps) (.createTablet (fun _ => true) 1 [66] []) trivial

/-- The next one gets number 3. -/
theorem numbered_third : ∃ t sequence, (sampleRun numberedTablets).run sampleSettings
      (.createTablet (fun _ => true) 1 [67] []) = .ok t ∧
    [51] = TabletPolicy.number { autoEnabled := true, assetNumberSequence := 1 } sequence ∧
    Allocated (sampleRun numberedTablets) 1 { autoEnabled := true, assetNumberSequence := 1 } sequence := by
  have hrow : (sampleRun numberedTablets).policies.find 1 = some { autoEnabled := true, assetNumberSequence := 1 } := by
    decide +kernel
  have hrun : ((sampleRun numberedTablets).run sampleSettings (.createTablet (fun _ => true) 1 [67] [])).map
      (fun t => t.labels.find (sampleRun numberedTablets).fleet.tablets.nextId) = .ok (some ⟨[67], [51]⟩) := by decide +kernel
  cases h : (sampleRun numberedTablets).run sampleSettings (.createTablet (fun _ => true) 1 [67] []) with
  | error e =>
    rw [h] at hrun
    cases hrun
  | ok t =>
    rw [h] at hrun
    have hlabel : t.labels.find (sampleRun numberedTablets).fleet.tablets.nextId = some ⟨[67], [51]⟩ := Except.ok.inj hrun
    obtain ⟨sequence, hnumber, hallocated, -⟩ := (asset_numbers numbering_sample).1 t 1
      { autoEnabled := true, assetNumberSequence := 1 } [51] ⟨hrow, rfl, ⟨_, _, _, h⟩, _, hlabel, rfl⟩
    exact ⟨t, sequence, rfl, hnumber, hallocated⟩

end FireDash.Tablets
