import FireDash.Lib.Table
import Mathlib.Logic.Relation
import Mathlib.Order.Defs.Unbundled

/-! Stateful computations that may raise. A raise keeps the writes made before it;
`atomic` is the database transaction that undoes them. Weakest preconditions carry
one postcondition for a normal return and one for a raise. -/
namespace FireDash

universe u

/-- A computation over the state `σ`, raising errors of type `ε`. -/
def Tx (σ ε α : Type) : Type := σ → Except ε α × σ

namespace Tx

variable {σ ε α β : Type}

instance : Monad (Tx σ ε) where
  pure a s := (.ok a, s)
  bind x f s :=
    match x s with
    | (.ok a, s') => f a s'
    | (.error e, s') => (.error e, s')

def get : Tx σ ε σ := fun s => (.ok s, s)

def modify (f : σ → σ) : Tx σ ε Unit := fun s => (.ok (), f s)

def raise (e : ε) : Tx σ ε α := fun s => (.error e, s)

def ofExcept (r : Except ε α) : Tx σ ε α := fun s => (r, s)

/-- Raise unless the condition holds. -/
def ensure (c : Prop) [Decidable c] (e : ε) : Tx σ ε Unit := if c then pure () else raise e

/-- The value, or the error when there is none. -/
def require (o : Option α) (e : ε) : Tx σ ε α :=
  match o with
  | some a => pure a
  | none => raise e

/-- Run only when the condition holds. -/
def whenever (c : Prop) [Decidable c] (x : Tx σ ε Unit) : Tx σ ε Unit := if c then x else pure ()

/-- Translate what is raised, keeping the state. -/
def mapError (g : ε → ε) (x : Tx σ ε α) : Tx σ ε α := fun s =>
  match x s with
  | (.ok a, s') => (.ok a, s')
  | (.error e, s') => (.error (g e), s')

/-- Recover from the errors `h` covers, with the writes made before the raise. -/
def handle (h : ε → Option (Tx σ ε α)) (x : Tx σ ε α) : Tx σ ε α := fun s =>
  match x s with
  | (.ok a, s') => (.ok a, s')
  | (.error e, s') =>
    match h e with
    | some y => y s'
    | none => (.error e, s')

/-- Run inside a transaction: a raise restores the state at entry. -/
def atomic (x : Tx σ ε α) : Tx σ ε α := fun s =>
  match x s with
  | (.ok a, s') => (.ok a, s')
  | (.error e, _) => (.error e, s)

/-- Run on a part of the state. -/
def zoom {τ : Type} (view : σ → τ) (put : σ → τ → σ) (x : Tx τ ε α) : Tx σ ε α := fun s =>
  let (r, t) := x (view s)
  (r, put s t)

/-- The committed state after a call, whichever way it ends. -/
def exec (x : Tx σ ε α) (s : σ) : σ := (x s).2

def forEach (body : α → Tx σ ε Unit) : List α → Tx σ ε Unit
  | [] => pure ()
  | a :: l => do
    body a
    forEach body l

/-- `Q` holds of a normal return and `E` of a raise. -/
def wp (x : Tx σ ε α) (Q : α → σ → Prop) (E : ε → σ → Prop) (s : σ) : Prop :=
  match x s with
  | (.ok a, s') => Q a s'
  | (.error e, s') => E e s'

variable {x : Tx σ ε α} {f : α → Tx σ ε β} {Q Q' : α → σ → Prop} {R : β → σ → Prop}
  {E E' : ε → σ → Prop} {s : σ}

@[simp] theorem wp_pure (a : α) : wp (pure a : Tx σ ε α) Q E s ↔ Q a s := Iff.rfl

@[simp] theorem wp_bind : wp (x >>= f) R E s ↔ wp x (fun a s' => wp (f a) R E s') E s := by
  simp only [wp, Bind.bind]
  cases x s with
  | mk r s' => cases r <;> rfl

@[simp] theorem wp_get {Q : σ → σ → Prop} : wp (get : Tx σ ε σ) Q E s ↔ Q s s := Iff.rfl

@[simp] theorem wp_modify (g : σ → σ) {Q : Unit → σ → Prop} :
    wp (modify g : Tx σ ε Unit) Q E s ↔ Q () (g s) := Iff.rfl

@[simp] theorem wp_raise (e : ε) : wp (raise e : Tx σ ε α) Q E s ↔ E e s := Iff.rfl

@[simp] theorem wp_ok (a : α) : wp (ofExcept (.ok a) : Tx σ ε α) Q E s ↔ Q a s := Iff.rfl

@[simp] theorem wp_error (e : ε) : wp (ofExcept (.error e) : Tx σ ε α) Q E s ↔ E e s := Iff.rfl

theorem wp_ofExcept {r : Except ε α} :
    wp (ofExcept r : Tx σ ε α) Q E s ↔ (∀ a, r = .ok a → Q a s) ∧ ∀ e, r = .error e → E e s := by
  cases r <;> simp

@[simp] theorem wp_ensure (c : Prop) [Decidable c] (e : ε) {Q : Unit → σ → Prop} :
    wp (ensure c e : Tx σ ε Unit) Q E s ↔ (c → Q () s) ∧ (¬c → E e s) := by
  unfold ensure
  by_cases h : c <;> simp [h]

@[simp] theorem wp_require (o : Option α) (e : ε) :
    wp (require o e : Tx σ ε α) Q E s ↔ (∀ a, o = some a → Q a s) ∧ (o = none → E e s) := by
  cases o <;> simp [require]

@[simp] theorem wp_whenever (c : Prop) [Decidable c] (y : Tx σ ε Unit) {Q : Unit → σ → Prop} :
    wp (whenever c y) Q E s ↔ (c → wp y Q E s) ∧ (¬c → Q () s) := by
  unfold whenever
  by_cases h : c <;> simp [h]

@[simp] theorem wp_mapError (g : ε → ε) : wp (mapError g x) Q E s ↔ wp x Q (fun e => E (g e)) s := by
  unfold wp mapError
  cases x s with
  | mk r s' => cases r <;> rfl

@[simp] theorem wp_atomic : wp (atomic x) Q E s ↔ wp x Q (fun e _ => E e s) s := by
  unfold wp atomic
  cases x s with
  | mk r s' => cases r <;> rfl

@[simp] theorem wp_zoom {τ : Type} {view : σ → τ} {put : σ → τ → σ} {y : Tx τ ε α} :
    wp (zoom view put y) Q E s ↔ wp y (fun a t => Q a (put s t)) (fun e t => E e (put s t)) (view s) := by
  unfold wp zoom
  cases y (view s) with
  | mk r t => cases r <;> rfl

theorem wp_handle {h : ε → Option (Tx σ ε α)} : wp (handle h x) Q E s ↔ wp x Q (fun e t =>
    (∀ y, h e = some y → wp y Q E t) ∧ (h e = none → E e t)) s := by
  unfold wp handle
  cases x s with
  | mk r t =>
    cases r with
    | ok a => rfl
    | error e =>
      dsimp only
      cases h e <;> simp

@[simp] theorem wp_ite (c : Prop) [Decidable c] (y : Tx σ ε α) :
    wp (if c then x else y) Q E s ↔ (c → wp x Q E s) ∧ (¬c → wp y Q E s) := by
  by_cases h : c <;> simp [h]

theorem wp_mono (h : wp x Q E s) (hQ : ∀ a s', Q a s' → Q' a s') (hE : ∀ e s', E e s' → E' e s') :
    wp x Q' E' s := by
  unfold wp at h ⊢
  cases hx : x s with
  | mk r s' =>
    rw [hx] at h
    cases r with
    | ok a => exact hQ a s' h
    | error e => exact hE e s' h

theorem wp_and (h : wp x Q E s) (h' : wp x Q' E' s) :
    wp x (fun a s' => Q a s' ∧ Q' a s') (fun e s' => E e s' ∧ E' e s') s := by
  unfold wp at *
  cases hx : x s with
  | mk r s' =>
    rw [hx] at h h'
    cases r with
    | ok a => exact ⟨h, h'⟩
    | error e => exact ⟨h, h'⟩

/-- Reading a weakest precondition back on a run that returned normally. -/
theorem wp.of_ok {a : α} {s' : σ} (h : wp x Q E s) (hx : x s = (.ok a, s')) : Q a s' := by
  unfold wp at h
  rwa [hx] at h

theorem wp.of_error {e : ε} {s' : σ} (h : wp x Q E s) (hx : x s = (.error e, s')) : E e s' := by
  unfold wp at h
  rwa [hx] at h

/-- Excluding the raise makes the return a fact. -/
theorem wp.exists_ok (h : wp x Q (fun _ _ => False) s) :
    ∃ a s', x s = (.ok a, s') ∧ Q a s' := by
  unfold wp at h
  cases hx : x s with
  | mk r s' =>
    rw [hx] at h
    cases r with
    | ok a => exact ⟨a, s', rfl, h⟩
    | error e => exact h.elim

theorem wp_of_forall (hQ : ∀ a s', x s = (.ok a, s') → Q a s')
    (hE : ∀ e s', x s = (.error e, s') → E e s') : wp x Q E s := by
  unfold wp
  cases hx : x s with
  | mk r s' =>
    cases r with
    | ok a => exact hQ a s' hx
    | error e => exact hE e s' hx

/-- A transaction that raises leaves the state it started from. -/
theorem wp_atomic_unchanged : wp (atomic x) (fun _ _ => True) (fun _ t => t = s) s := by
  rw [wp_atomic]
  exact wp_of_forall (fun _ _ _ => trivial) (fun _ _ _ => rfl)

theorem exec_of_wp {P : σ → Prop} (h : wp x (fun _ t => P t) (fun _ t => P t) s) : P (exec x s) := by
  unfold wp at h
  unfold exec
  cases hx : x s with
  | mk r s' =>
    rw [hx] at h
    cases r <;> exact h

/-- A dropped result does not matter to the state. -/
theorem exec_drop (x : Tx σ ε α) (s : σ) : exec (x >>= fun _ => pure () : Tx σ ε Unit) s = exec x s := by
  simp only [exec, Bind.bind]
  cases x s with
  | mk r t => cases r <;> rfl

/-- Loop rule: the invariant sees the items still to be visited. -/
theorem wp_forEach {body : α → Tx σ ε Unit} (I : List α → σ → Prop) (l : List α) (hI : I l s)
    (step : ∀ a rest s, I (a :: rest) s → wp (body a) (fun _ s' => I rest s') E s) :
    wp (forEach body l) (fun _ s' => I [] s') E s := by
  induction l generalizing s with
  | nil => exact hI
  | cons a rest ih =>
    simp only [forEach, wp_bind]
    exact wp_mono (step a rest s hI) (fun _ _ h => ih h) (fun _ _ h => h)

/-- Loop rule for rows of a table: each visit leaves its own row as `T` and the other rows
as they were read. -/
theorem wp_forEach_rows {β : Type} (t : σ → Table β) {body : ℕ × β → Tx σ ε Unit} (R : σ → Prop) (T : β → Prop)
    (l : List (ℕ × β)) (hnd : (l.map Prod.fst).Nodup) (hl : ∀ e ∈ l, (t s).find e.1 = some e.2) (hR : R s)
    (step : ∀ e s, R s → e ∈ l → (t s).find e.1 = some e.2 → wp (body e) (fun _ s' => R s' ∧
      (∃ b, (t s').find e.1 = some b ∧ T b) ∧ ∀ k, k ≠ e.1 → (t s').find k = (t s).find k) E s) :
    wp (forEach body l) (fun _ s' => R s' ∧ (∀ e ∈ l, ∃ b, (t s').find e.1 = some b ∧ T b) ∧
      ∀ k, k ∉ l.map Prod.fst → (t s').find k = (t s).find k) E s := by
  induction l generalizing s with
  | nil => exact ⟨hR, by simp, fun _ _ => rfl⟩
  | cons e rest ih =>
    rw [List.map_cons, List.nodup_cons] at hnd
    simp only [forEach, wp_bind]
    refine wp_mono (step e s hR List.mem_cons_self (hl e List.mem_cons_self)) ?_ (fun _ _ h => h)
    rintro _ s' ⟨hR', ⟨b, hb, hT⟩, hframe⟩
    have hrest : ∀ a ∈ rest, (t s').find a.1 = some a.2 := by
      intro a ha
      have hne : a.1 ≠ e.1 := fun he => hnd.1 (he ▸ List.mem_map_of_mem ha)
      rw [hframe a.1 hne]
      exact hl a (List.mem_cons_of_mem _ ha)
    refine wp_mono (ih hnd.2 hrest hR' fun a s ha hm => step a s ha (List.mem_cons_of_mem _ hm)) ?_ (fun _ _ h => h)
    rintro _ s'' ⟨hR'', hall, hkeep⟩
    refine ⟨hR'', fun a ha => ?_, fun k hk => ?_⟩
    · rcases List.mem_cons.mp ha with rfl | ha
      · exact ⟨b, (hkeep a.1 hnd.1).trans hb, hT⟩
      · exact hall a ha
    · rw [List.map_cons, List.mem_cons, not_or] at hk
      rw [hkeep k hk.2, hframe k hk.1]

/-! ### Frames: what a computation may do to the state, whichever way it ends -/

/-- The state a computation leaves is related to the one it starts from. -/
def Frames (R : σ → σ → Prop) (x : Tx σ ε α) (s : σ) : Prop := wp x (fun _ t => R s t) (fun _ t => R s t) s

section Frames

variable {F : σ → σ → Prop} {y : Tx σ ε Unit} {body : α → Tx σ ε Unit}

theorem frames_modify {g : σ → σ} : Frames F (modify g : Tx σ ε Unit) s ↔ F s (g s) := Iff.rfl

theorem frames_get_bind {g : σ → Tx σ ε α} : Frames F (get >>= g) s ↔ Frames F (g s) s := Iff.rfl

theorem Frames.mapError (g : ε → ε) (h : Frames F x s) : Frames F (mapError g x) s := (wp_mapError g).mpr h

theorem Frames.exec (h : Frames F x s) : F s (exec x s) := exec_of_wp h

variable [IsPreorder σ F]

theorem frames_pure (a : α) : Frames F (pure a : Tx σ ε α) s := refl_of F s

theorem frames_ofExcept (r : Except ε α) : Frames F (ofExcept r : Tx σ ε α) s :=
  wp_ofExcept.mpr ⟨fun _ _ => refl_of F s, fun _ _ => refl_of F s⟩

theorem frames_ensure (c : Prop) [Decidable c] (e : ε) : Frames F (ensure c e : Tx σ ε Unit) s :=
  (wp_ensure c e).mpr ⟨fun _ => refl_of F s, fun _ => refl_of F s⟩

theorem frames_require (o : Option α) (e : ε) : Frames F (require o e : Tx σ ε α) s :=
  (wp_require o e).mpr ⟨fun _ _ => refl_of F s, fun _ => refl_of F s⟩

/-- The second computation may use what the first one returned and related. -/
theorem frames_bind (hx : wp x (fun a t => F s t ∧ Frames F (f a) t) (fun _ t => F s t) s) : Frames F (x >>= f) s :=
  wp_bind.mpr (wp_mono hx (fun _ _ ⟨ht, hf⟩ => wp_mono hf (fun _ _ h => trans_of F ht h) fun _ _ h => trans_of F ht h)
    fun _ _ h => h)

theorem Frames.bind (hx : Frames F x s) (hf : ∀ a t, F s t → Frames F (f a) t) : Frames F (x >>= f) s :=
  frames_bind (wp_mono hx (fun a t h => ⟨h, hf a t h⟩) fun _ _ h => h)

/-- A raise of a transaction undoes its writes. -/
theorem Frames.atomic (h : wp x (fun _ t => F s t) (fun _ _ => True) s) : Frames F (atomic x) s :=
  wp_atomic.mpr (wp_mono h (fun _ _ ht => ht) fun _ _ _ => refl_of F s)

theorem Frames.toAtomic (h : Frames F x s) : Frames F (Tx.atomic x) s :=
  .atomic (wp_mono h (fun _ _ ht => ht) fun _ _ _ => trivial)

theorem Frames.handle {h : ε → Option (Tx σ ε α)} (hx : Frames F x s)
    (hh : ∀ e y, h e = some y → ∀ t, F s t → Frames F y t) : Frames F (handle h x) s := by
  refine wp_handle.mpr (wp_mono hx (fun _ _ ht => ht) fun e t ht => ⟨fun y hy => ?_, fun _ => ht⟩)
  have hrest := hh e y hy t ht
  exact wp_mono hrest (fun _ _ hu => trans_of F ht hu) fun _ _ hu => trans_of F ht hu

theorem Frames.whenever (c : Prop) [Decidable c] (h : c → Frames F y s) : Frames F (whenever c y) s :=
  (wp_whenever c y).mpr ⟨h, fun _ => refl_of F s⟩

theorem Frames.forEach {l : List α} (h : ∀ a ∈ l, ∀ t, F s t → Frames F (body a) t) : Frames F (forEach body l) s := by
  induction l generalizing s with
  | nil => exact frames_pure ()
  | cons a rest ih =>
    refine Frames.bind (h a List.mem_cons_self s (refl_of F s)) fun _ t ht => ih fun b hb u hu => ?_
    exact h b (List.mem_cons_of_mem _ hb) u (trans_of F ht hu)

end Frames

end Tx
end FireDash
