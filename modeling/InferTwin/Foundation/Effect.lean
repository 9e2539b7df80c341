import Mathlib.Data.Finmap

namespace InferTwin.Effect

variable {ε ε' σ τ α β γ δ : Type}

/-- A checked pure computation inside a stateful one. A failure leaves the state alone. -/
def check : Except ε α → EStateM ε σ α
  | .ok a => pure a
  | .error e => throw e

/-- Run a computation on one component of the state, its errors wrapped. What it
did to the component before a failure stays, as with a mutable object. -/
def zoom (wrap : ε' → ε) (get : σ → τ) (set : τ → σ → σ) (x : EStateM ε' τ α) :
    EStateM ε σ α := fun s ↦
  match x (get s) with
  | .ok a t => .ok a (set t s)
  | .error e t => .error (wrap e) (set t s)

@[simp] theorem pure_apply (a : α) (s : σ) : (pure a : EStateM ε σ α) s = .ok a s := rfl

@[simp] theorem get_apply (s : σ) : (get : EStateM ε σ σ) s = .ok s s := rfl

@[simp] theorem modify_apply (f : σ → σ) (s : σ) :
    (modify f : EStateM ε σ Unit) s = .ok () (f s) := rfl

@[simp] theorem throw_apply (e : ε) (s : σ) : (throw e : EStateM ε σ α) s = .error e s := rfl

@[simp] theorem check_ok_apply (a : α) (s : σ) :
    (check (.ok a) : EStateM ε σ α) s = .ok a s := rfl

@[simp] theorem check_error_apply (e : ε) (s : σ) :
    (check (.error e) : EStateM ε σ α) s = .error e s := rfl

theorem bind_apply (x : EStateM ε σ α) (f : α → EStateM ε σ β) (s : σ) :
    (x >>= f) s = match x s with
      | .ok a s' => f a s'
      | .error e s' => .error e s' := by
  show EStateM.bind x f s = _
  unfold EStateM.bind
  cases x s <;> rfl

@[simp] theorem pure_bind (a : α) (f : α → EStateM ε σ β) : (pure a >>= f) = f a := rfl

@[simp] theorem check_ok_bind (a : α) (f : α → EStateM ε σ β) :
    (check (.ok a) >>= f) = f a := rfl

theorem map_apply (f : α → β) (x : EStateM ε σ α) (s : σ) :
    (f <$> x) s = match x s with
      | .ok a s' => .ok (f a) s'
      | .error e s' => .error e s' := by
  show EStateM.map f x s = _
  unfold EStateM.map
  cases x s <;> rfl

theorem bind_ok {x : EStateM ε σ α} {f : α → EStateM ε σ β} {s s' : σ} {b : β} :
    (x >>= f) s = .ok b s' ↔ ∃ a t, x s = .ok a t ∧ f a t = .ok b s' := by
  rw [bind_apply]
  cases hx : x s with
  | ok a t => simp
  | error e t => simp

theorem bind_error {x : EStateM ε σ α} {f : α → EStateM ε σ β} {s s' : σ} {e : ε} :
    (x >>= f) s = .error e s' ↔
      x s = .error e s' ∨ ∃ a t, x s = .ok a t ∧ f a t = .error e s' := by
  rw [bind_apply]
  cases hx : x s with
  | ok a t => simp
  | error e' t => simp

theorem check_ok {x : Except ε α} {s s' : σ} {a : α} :
    check x s = .ok a s' ↔ x = .ok a ∧ s' = s := by
  cases x <;> simp [eq_comm]

theorem check_error {x : Except ε α} {s s' : σ} {e : ε} :
    (check x : EStateM ε σ α) s = .error e s' ↔ x = .error e ∧ s' = s := by
  cases x <;> simp [eq_comm]

theorem zoom_ok {wrap : ε' → ε} {get : σ → τ} {set : τ → σ → σ} {x : EStateM ε' τ α}
    {s s' : σ} {a : α} :
    zoom wrap get set x s = .ok a s' ↔ ∃ t, x (get s) = .ok a t ∧ s' = set t s := by
  unfold zoom
  cases hx : x (get s) <;> simp [eq_comm]

theorem zoom_error {wrap : ε' → ε} {get : σ → τ} {set : τ → σ → σ} {x : EStateM ε' τ α}
    {s s' : σ} {e : ε} :
    zoom wrap get set x s = .error e s' ↔
      ∃ e' t, x (get s) = .error e' t ∧ e = wrap e' ∧ s' = set t s := by
  unfold zoom
  cases hx : x (get s) <;> simp [eq_comm]

@[simp] theorem except_ok_bind (a : α) (f : α → Except ε β) : (Except.ok a >>= f) = f a := rfl

theorem except_bind_ok {x : Except ε α} {f : α → Except ε β} {b : β} :
    (x >>= f) = .ok b ↔ ∃ a, x = .ok a ∧ f a = .ok b := by
  cases x with
  | ok a => simp [bind, Except.bind]
  | error e => simp [bind, Except.bind]

/-- A loop over computations that all return. -/
theorem except_mapM_ok {f : α → Except ε β} {g : α → β} {items : List α}
    (h : ∀ item ∈ items, f item = .ok (g item)) : items.mapM f = .ok (items.map g) := by
  induction items with
  | nil => rfl
  | cons item items ih =>
    obtain ⟨hitem, hitems⟩ := List.forall_mem_cons.mp h
    rw [List.mapM_cons, hitem, except_ok_bind, ih hitems]
    rfl

theorem except_map_ok {x : Except ε α} {f : α → β} {b : β} :
    x.map f = .ok b ↔ ∃ a, x = .ok a ∧ f a = b := by
  cases x <;> simp [Except.map]

theorem except_ok_of_is_ok {ε α : Type} {result : Except ε α} (h : result.isOk = true) :
    ∃ value, result = .ok value := by
  cases result with
  | ok value => exact ⟨value, rfl⟩
  | error e => exact absurd h Bool.false_ne_true

theorem except_map_error_ok {f : ε' → ε} {x : Except ε' α} {a : α} :
    x.mapError f = .ok a ↔ x = .ok a := by
  cases x <;> simp [Except.mapError]

/-- Two outcomes agree: both return values related by `Q`, or both fail with the
same error, in states related by `W` either way. -/
inductive Agree (W : σ → τ → Prop) (Q : α → β → Prop) :
    EStateM.Result ε σ α → EStateM.Result ε τ β → Prop
  | ok {a : α} {b : β} {s : σ} {t : τ} : W s t → Q a b → Agree W Q (.ok a s) (.ok b t)
  | error {e : ε} {s : σ} {t : τ} : W s t → Agree W Q (.error e s) (.error e t)

/-- Two computations agree from every pair of related states. -/
def Simulates (W : σ → τ → Prop) (Q : α → β → Prop) (x : EStateM ε σ α) (y : EStateM ε τ β) :
    Prop :=
  ∀ s t, W s t → Agree W Q (x s) (y t)

namespace Simulates

variable {W : σ → τ → Prop} {Q : α → β → Prop} {x : EStateM ε σ α} {y : EStateM ε τ β}

theorem pure {a : α} {b : β} (h : Q a b) :
    Simulates (ε := ε) W Q (Pure.pure a) (Pure.pure b) := fun _ _ hw ↦ .ok hw h

theorem throw (e : ε) :
    Simulates W Q (MonadExcept.throw e : EStateM ε σ α) (MonadExcept.throw e : EStateM ε τ β) :=
  fun _ _ hw ↦ .error hw

theorem mono {Q' : α → β → Prop} (h : Simulates W Q x y) (hq : ∀ a b, Q a b → Q' a b) :
    Simulates W Q' x y := by
  intro s t hw
  have hxy := h s t hw
  generalize x s = u at hxy ⊢
  generalize y t = v at hxy ⊢
  cases hxy with
  | ok hw' hab => exact .ok hw' (hq _ _ hab)
  | error hw' => exact .error hw'

theorem bind {R : γ → δ → Prop} {f : α → EStateM ε σ γ} {g : β → EStateM ε τ δ}
    (h : Simulates W Q x y) (hf : ∀ a b, Q a b → Simulates W R (f a) (g b)) :
    Simulates W R (x >>= f) (y >>= g) := by
  intro s t hw
  rw [bind_apply, bind_apply]
  have hxy := h s t hw
  generalize x s = u at hxy ⊢
  generalize y t = v at hxy ⊢
  cases hxy with
  | ok hw' hab => exact hf _ _ hab _ _ hw'
  | error hw' => exact .error hw'

theorem check {u : Except ε α} {v : Except ε β}
    (h : ∀ a b, u = .ok a → v = .ok b → Q a b)
    (he : (∃ a b, u = .ok a ∧ v = .ok b) ∨ ∃ e, u = .error e ∧ v = .error e) :
    Simulates W Q (Effect.check u) (Effect.check v) := by
  intro s t hw
  rcases he with ⟨a, b, rfl, rfl⟩ | ⟨e, rfl, rfl⟩
  · exact .ok hw (h a b rfl rfl)
  · exact .error hw

/-- The right side is the left one with its value dressed up. -/
theorem check_map {u : Except ε α} {φ : α → β} (h : ∀ a, u = .ok a → Q a (φ a)) :
    Simulates W Q (Effect.check u) (Effect.check (u.map φ)) := by
  intro s t hw
  cases u with
  | ok a => exact .ok hw (h a rfl)
  | error e => exact .error hw

theorem check_same (u : Except ε α) : Simulates W Eq (Effect.check u) (Effect.check u) := by
  intro s t hw
  cases u with
  | ok a => exact .ok hw rfl
  | error e => exact .error hw

/-- Both sides go on with the same value. -/
theorem bind_same {R : γ → δ → Prop} {y : EStateM ε τ α} {f : α → EStateM ε σ γ}
    {g : α → EStateM ε τ δ} (h : Simulates W Eq x y) (hf : ∀ a, Simulates W R (f a) (g a)) :
    Simulates W R (x >>= f) (y >>= g) :=
  h.bind fun a _ he ↦ he ▸ hf a

/-- The same computation on a component that both states share. -/
theorem zoom_same {wrap : ε' → ε} {get : σ → γ} {set : γ → σ → σ} {get' : τ → γ}
    {set' : γ → τ → τ} (hget : ∀ s t, W s t → get s = get' t)
    (hset : ∀ c s t, W s t → W (set c s) (set' c t)) (x : EStateM ε' γ α) :
    Simulates W Eq (zoom wrap get set x) (zoom wrap get' set' x) := by
  intro s t hw
  unfold zoom
  rw [hget s t hw]
  cases x (get' t) with
  | ok a c => exact .ok (hset c s t hw) rfl
  | error e c => exact .error (hset c s t hw)

theorem modify_both {f : σ → σ} {g : τ → τ} (h : ∀ s t, W s t → W (f s) (g t)) :
    Simulates W Eq (modify f : EStateM ε σ Unit) (modify g : EStateM ε τ Unit) :=
  fun s t hw ↦ .ok (h s t hw) rfl

/-- The same computation on both sides of an equality of states. -/
theorem refl (x : EStateM ε σ α) : Simulates Eq Eq x x := by
  rintro s _ rfl
  cases x s with
  | ok a s' => exact .ok rfl rfl
  | error e s' => exact .error rfl

end Simulates

theorem Agree.mono {W : σ → τ → Prop} {Q Q' : α → β → Prop} {u : EStateM.Result ε σ α}
    {v : EStateM.Result ε τ β} (h : Agree W Q u v) (hq : ∀ a b, Q a b → Q' a b) :
    Agree W Q' u v := by
  cases h with
  | ok hw hab => exact .ok hw (hq _ _ hab)
  | error hw => exact .error hw

theorem Agree.ok_left {W : σ → τ → Prop} {Q : α → β → Prop} {a : α} {s : σ}
    {v : EStateM.Result ε τ β} (h : Agree W Q (.ok a s) v) :
    ∃ b t, v = .ok b t ∧ W s t ∧ Q a b := by
  cases h with
  | ok hw hab => exact ⟨_, _, rfl, hw, hab⟩

theorem Agree.ok_right {W : σ → τ → Prop} {Q : α → β → Prop} {u : EStateM.Result ε σ α} {b : β}
    {t : τ} (h : Agree W Q u (.ok b t)) : ∃ a s, u = .ok a s ∧ W s t ∧ Q a b := by
  cases h with
  | ok hw hab => exact ⟨_, _, rfl, hw, hab⟩

theorem Agree.bind {W : σ → τ → Prop} {Q : α → β → Prop} {R : γ → δ → Prop}
    {x : EStateM ε σ α} {y : EStateM ε τ β} {f : α → EStateM ε σ γ} {g : β → EStateM ε τ δ}
    {s : σ} {t : τ} (h : Agree W Q (x s) (y t))
    (hf : ∀ a b s' t', x s = .ok a s' → y t = .ok b t' → W s' t' → Q a b →
      Agree W R (f a s') (g b t')) :
    Agree W R ((x >>= f) s) ((y >>= g) t) := by
  rw [bind_apply, bind_apply]
  generalize hx : x s = u at h ⊢
  generalize hy : y t = v at h ⊢
  cases h with
  | ok hw hab => exact hf _ _ _ _ hx hy hw hab
  | error hw => exact .error hw

/-- The right side goes on to dress its value up. -/
theorem Agree.map_right {W : σ → τ → Prop} {Q : α → β → Prop} {R : α → δ → Prop}
    {u : EStateM.Result ε σ α} {y : EStateM ε τ β} {φ : β → δ} {t : τ} (h : Agree W Q u (y t))
    (hq : ∀ a b, Q a b → R a (φ b)) :
    Agree W R u ((y >>= fun b ↦ Pure.pure (φ b)) t) := by
  rw [bind_apply]
  generalize y t = v at h ⊢
  cases h with
  | ok hw hab => exact .ok hw (hq _ _ hab)
  | error hw => exact .error hw

/-- Both sides start with the same computation. -/
theorem Agree.bind_same {R : γ → δ → Prop} {x : EStateM ε σ α} {f : α → EStateM ε σ γ}
    {g : α → EStateM ε σ δ} {s : σ}
    (hf : ∀ a s', x s = .ok a s' → Agree Eq R (f a s') (g a s')) :
    Agree Eq R ((x >>= f) s) ((x >>= g) s) := by
  refine Agree.bind (Simulates.refl x s s rfl) ?_
  rintro a _ s' _ hx - rfl rfl
  exact hf a s' hx

/-- Both sides start with checked computations, one of which says more. -/
theorem Agree.bind_check {R : γ → δ → Prop} {u : Except ε α} {φ : α → β}
    {f : β → EStateM ε σ γ} {g : α → EStateM ε σ δ} {s : σ}
    (hf : ∀ a, u = .ok a → Agree Eq R (f (φ a) s) (g a s)) :
    Agree Eq R ((Effect.check (u.map φ) >>= f) s) ((Effect.check u >>= g) s) := by
  cases u with
  | ok a => exact hf a rfl
  | error e => exact .error rfl

theorem except_map_bind (u : Except ε α) (φ : α → β) (f : β → Except ε γ) :
    (u.map φ >>= f) = u >>= fun a ↦ f (φ a) := by cases u <;> rfl

theorem except_bind_map (u : Except ε α) (f : α → Except ε β) (φ : β → γ) :
    (u >>= f).map φ = u >>= fun a ↦ (f a).map φ := by cases u <;> rfl

/-- Agreement composes along a shared middle computation when the states are equal. -/
theorem Agree.trans {Q : α → β → Prop} {R : γ → β → Prop} {S : α → γ → Prop}
    {u : EStateM.Result ε σ α} {v : EStateM.Result ε σ β} {w : EStateM.Result ε σ γ}
    (h : Agree Eq Q u v) (h' : Agree Eq R w v) (hs : ∀ a b c, Q a b → R c b → S a c) :
    Agree Eq S u w := by
  cases h with
  | ok hw hab =>
    cases h' with
    | ok hw' hcb => exact .ok (hw.trans hw'.symm) (hs _ _ _ hab hcb)
  | error hw =>
    cases h' with
    | error hw' => exact .error (hw.trans hw'.symm)

theorem Agree.symm {W : σ → τ → Prop} {Q : α → β → Prop} {u : EStateM.Result ε σ α}
    {v : EStateM.Result ε τ β} (h : Agree W Q u v) :
    Agree (fun t s ↦ W s t) (fun b a ↦ Q a b) v u := by
  cases h with
  | ok hw hab => exact .ok hw hab
  | error hw => exact .error hw

/-- Agreement composes, and so do the relations of states and of values. -/
theorem Agree.comp {ρ : Type} {W : σ → τ → Prop} {W' : τ → ρ → Prop} {V : σ → ρ → Prop}
    {Q : α → β → Prop} {Q' : β → γ → Prop} {R : α → γ → Prop} {u : EStateM.Result ε σ α}
    {v : EStateM.Result ε τ β} {w : EStateM.Result ε ρ γ} (h : Agree W Q u v)
    (h' : Agree W' Q' v w) (hv : ∀ s t r, W s t → W' t r → V s r)
    (hr : ∀ a b c, Q a b → Q' b c → R a c) : Agree V R u w := by
  cases h with
  | ok hw hab =>
    cases h' with
    | ok hw' hbc => exact .ok (hv _ _ _ hw hw') (hr _ _ _ hab hbc)
  | error hw =>
    cases h' with
    | error hw' => exact .error (hv _ _ _ hw hw')

/-- The state in which a computation ends, however it ends. -/
def after : EStateM.Result ε σ α → σ
  | .ok _ s => s
  | .error _ s => s

@[simp] theorem after_ok (a : α) (s : σ) : after (.ok a s : EStateM.Result ε σ α) = s := rfl

@[simp] theorem after_error (e : ε) (s : σ) : after (.error e s : EStateM.Result ε σ α) = s := rfl

/-- What a computation returns, or how it fails. -/
def outcome : EStateM.Result ε σ α → Except ε α
  | .ok a _ => .ok a
  | .error e _ => .error e

@[simp] theorem outcome_ok (a : α) (s : σ) :
    outcome (.ok a s : EStateM.Result ε σ α) = .ok a := rfl

@[simp] theorem outcome_error (e : ε) (s : σ) :
    outcome (.error e s : EStateM.Result ε σ α) = .error e := rfl

theorem outcome_eq_ok {result : EStateM.Result ε σ α} {a : α} :
    outcome result = .ok a ↔ ∃ s, result = .ok a s := by
  cases result with
  | ok b s => simp
  | error e s => simp

/-- However the computation ends, it leaves `P` true. -/
def Keeps (P : σ → Prop) (x : EStateM ε σ α) : Prop := ∀ s, P s → P (after (x s))

namespace Keeps

variable {P : σ → Prop} {x : EStateM ε σ α}

theorem pure (a : α) : Keeps P (Pure.pure a : EStateM ε σ α) := fun _ h ↦ h

theorem throw (e : ε) : Keeps P (MonadExcept.throw e : EStateM ε σ α) := fun _ h ↦ h

theorem check (u : Except ε α) : Keeps P (Effect.check u) := by
  intro s h
  cases u <;> exact h

theorem bind {f : α → EStateM ε σ β} (h : Keeps P x) (hf : ∀ a, Keeps P (f a)) :
    Keeps P (x >>= f) := by
  intro s hs
  have hx := h s hs
  rw [bind_apply]
  generalize x s = u at hx ⊢
  cases u with
  | ok a s' => exact hf a s' hx
  | error e s' => exact hx

/-- A computation on a part of the state that `P` does not depend on. -/
theorem zoom {wrap : ε' → ε} {get : σ → τ} {set : τ → σ → σ} (y : EStateM ε' τ α)
    (hset : ∀ t s, P s → P (set t s)) : Keeps P (Effect.zoom wrap get set y) := by
  intro s hs
  unfold Effect.zoom
  cases y (get s) with
  | ok a t => exact hset t s hs
  | error e t => exact hset t s hs

theorem ok {s s' : σ} {a : α} (h : Keeps P x) (hs : P s) (hx : x s = .ok a s') : P s' := by
  have hafter := h s hs
  rwa [hx] at hafter

end Keeps

/-- A failure of the computation leaves `P` true. -/
def Spares (P : σ → Prop) (x : EStateM ε σ α) : Prop :=
  ∀ s e s', P s → x s = .error e s' → P s'

namespace Spares

variable {P : σ → Prop} {x : EStateM ε σ α}

theorem pure (a : α) : Spares P (Pure.pure a : EStateM ε σ α) := by
  intro s e s' _ h
  cases h

theorem bind {f : α → EStateM ε σ β} (h : Keeps P x) (hf : ∀ a, Spares P (f a)) :
    Spares P (x >>= f) := by
  intro s e s' hs hfail
  have hx := h s hs
  rcases bind_error.mp hfail with hfail | ⟨a, t, hok, hfail⟩
  · rwa [hfail] at hx
  · rw [hok] at hx
    exact hf a t e s' hx hfail

theorem throw_bind (e : ε) (f : α → EStateM ε σ β) :
    Spares P (MonadExcept.throw e >>= f : EStateM ε σ β) := by
  intro s e' s' hs h
  cases h
  exact hs

/-- What comes after the computation cannot fail. -/
theorem then_pure {f : α → β} (h : Spares P x) : Spares P (x >>= fun a ↦ Pure.pure (f a)) := by
  intro s e s' hs hfail
  rcases bind_error.mp hfail with hfail | ⟨a, t, -, hfail⟩
  · exact h s e s' hs hfail
  · cases hfail

end Spares

section Calls

variable {ι : Type}

/-- Call an object again and again, and collect its answers. -/
def calls (step : ι → EStateM ε σ β) : List ι → EStateM ε σ (List β)
  | [] => pure []
  | op :: ops => do
    let answer ← step op
    let answers ← calls step ops
    return answer :: answers

/-- One more call. -/
theorem calls_concat {step : ι → EStateM ε σ β} {ops : List ι} {op : ι} {s s₁ s₂ : σ}
    {answers : List β} {answer : β} (h : calls step ops s = .ok answers s₁)
    (hop : step op s₁ = .ok answer s₂) :
    calls step (ops ++ [op]) s = .ok (answers ++ [answer]) s₂ := by
  induction ops generalizing s answers with
  | nil =>
    cases h
    simp only [List.nil_append, calls, bind_apply, hop]
    rfl
  | cons first ops ih =>
    obtain ⟨a, t, hfirst, h⟩ := bind_ok.mp h
    obtain ⟨rest, t', hrest, h⟩ := bind_ok.mp h
    cases h
    rw [List.cons_append, calls]
    simp only [bind_apply, hfirst, ih hrest]
    rfl

/-- The same for a machine that cannot fail. -/
def plays (step : ι → τ → β × τ) : List ι → τ → List β × τ
  | [], t => ([], t)
  | op :: ops, t =>
    let answer := step op t
    let rest := plays step ops answer.2
    (answer.1 :: rest.1, rest.2)

/-- Run a computation and catch its failure. -/
def attempt (x : EStateM ε σ α) (s : σ) : Option α × σ :=
  match x s with
  | .ok a s' => (some a, s')
  | .error _ s' => (none, s')

/-- A machine that answers every call as another one does, and keeps up with its state,
refines it over all sequences of calls. -/
theorem plays_refine {υ : Type} {machine : ι → τ → β × τ} {model : ι → υ → β × υ}
    {R : τ → υ → Prop}
    (hstep : ∀ op t u, R t u →
      (machine op t).1 = (model op u).1 ∧ R (machine op t).2 (model op u).2)
    (ops : List ι) {t : τ} {u : υ} (h : R t u) :
    (plays machine ops t).1 = (plays model ops u).1 ∧
      R (plays machine ops t).2 (plays model ops u).2 := by
  induction ops generalizing t u with
  | nil => exact ⟨rfl, h⟩
  | cons op ops ih =>
    obtain ⟨hanswer, hmove⟩ := hstep op t u h
    obtain ⟨hanswers, hrest⟩ := ih hmove
    exact ⟨congrArg₂ List.cons hanswer hanswers, hrest⟩

/-- An object that answers every call as the machine does, and keeps up with its state,
refines it over all sequences of calls. -/
theorem calls_refine {step : ι → EStateM ε σ β} {machine : ι → τ → β × τ}
    {R : σ → τ → Prop}
    (hstep : ∀ op s t, R s t → ∃ s', step op s = .ok (machine op t).1 s' ∧ R s' (machine op t).2)
    (ops : List ι) {s : σ} {t : τ} (h : R s t) :
    ∃ s', calls step ops s = .ok (plays machine ops t).1 s' ∧ R s' (plays machine ops t).2 := by
  induction ops generalizing s t with
  | nil => exact ⟨s, rfl, h⟩
  | cons op ops ih =>
    obtain ⟨s₁, hanswer, h₁⟩ := hstep op s t h
    obtain ⟨s₂, hanswers, h₂⟩ := ih h₁
    refine ⟨s₂, ?_, h₂⟩
    unfold calls
    simp only [bind_apply, hanswer, hanswers]
    rfl

/-- What holds of each answer of the machine holds along its run. -/
theorem plays_forall₂ {machine : ι → τ → β × τ} {P : ι → β → Prop}
    (h : ∀ op t, P op (machine op t).1) (ops : List ι) (t : τ) :
    List.Forall₂ P ops (plays machine ops t).1 := by
  induction ops generalizing t with
  | nil => exact .nil
  | cons op ops ih => exact .cons (h op t) (ih _)

/-- Two machines that move alike give answers that are related one by one. -/
theorem plays_related {first second : ι → τ → β × τ} {P : β → β → Prop}
    (hmove : ∀ op t, (first op t).2 = (second op t).2)
    (hanswer : ∀ op t, P (first op t).1 (second op t).1) (ops : List ι) (t : τ) :
    List.Forall₂ P (plays first ops t).1 (plays second ops t).1 := by
  induction ops generalizing t with
  | nil => exact .nil
  | cons op ops ih =>
    refine .cons (hanswer op t) ?_
    rw [hmove op t]
    exact ih _

end Calls

end InferTwin.Effect
