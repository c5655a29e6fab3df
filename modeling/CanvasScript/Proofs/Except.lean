import CanvasScript.Scalar

/-!
# Results that may fail

What it takes for a computation with failures to succeed: each of its parts does. A run on a state
passes the state on, also where it fails.
-/

namespace CanvasScript

variable {ε β γ : Type}

theorem bind_eq_ok {x : Except ε β} {f : β → Except ε γ} {c : γ} :
    x >>= f = .ok c ↔ ∃ b, x = .ok b ∧ f b = .ok c := by
  cases x with
  | error e => exact ⟨fun h => (by cases h), fun ⟨b, h, _⟩ => (by cases h)⟩
  | ok b => exact ⟨fun h => ⟨b, rfl, h⟩, fun ⟨_, h, hf⟩ => (by cases h; exact hf)⟩

theorem map_eq_ok {x : Except ε β} {f : β → γ} {c : γ} :
    x.map f = .ok c ↔ ∃ b, x = .ok b ∧ f b = c := by
  cases x with
  | error e => exact ⟨fun h => (by cases h), fun ⟨b, h, _⟩ => (by cases h)⟩
  | ok b =>
    exact ⟨fun h => ⟨b, rfl, Except.ok.inj h⟩, fun ⟨_, h, hf⟩ => (by cases h; cases hf; rfl)⟩

theorem bind_eq_error {x : Except ε β} {f : β → Except ε γ} {e : ε} :
    x >>= f = .error e ↔ x = .error e ∨ ∃ b, x = .ok b ∧ f b = .error e := by
  cases x with
  | error e' =>
    exact ⟨fun h => .inl (congrArg Except.error (Except.error.inj h)), fun h =>
      h.elim (fun h => (by cases h; rfl)) fun ⟨_, h, _⟩ => (by cases h)⟩
  | ok b =>
    exact ⟨fun h => .inr ⟨b, rfl, h⟩, fun h =>
      h.elim (fun h => (by cases h)) fun ⟨_, h, hf⟩ => (by cases h; exact hf)⟩

theorem map_eq_error {x : Except ε β} {f : β → γ} {e : ε} :
    x.map f = .error e ↔ x = .error e := by
  cases x with
  | error e' => exact ⟨fun h => (by cases h; rfl), fun h => (by cases h; rfl)⟩
  | ok b => exact ⟨fun h => (by cases h), fun h => (by cases h)⟩

theorem mapError_eq_ok {δ : Type} {x : Except ε β} {f : ε → δ} {b : β} :
    x.mapError f = .ok b ↔ x = .ok b := by
  cases x with
  | error e => exact ⟨fun h => (by cases h), fun h => (by cases h)⟩
  | ok b' => exact ⟨fun h => (by cases h; rfl), fun h => (by cases h; rfl)⟩

/-- Parts that all succeed make up a list that does. -/
theorem mapM_eq_ok {f : β → Except ε γ} {g : β → γ} :
    ∀ {items : List β}, (∀ b ∈ items, f b = .ok (g b)) → items.mapM f = .ok (items.map g)
  | [], _ => rfl
  | b :: rest, h => by
    obtain ⟨hb, hrest⟩ := List.forall_mem_cons.mp h
    rw [List.mapM_cons, hb, mapM_eq_ok hrest]
    rfl

theorem optionMapM_eq_some {f : β → Except ε γ} {o : Option β} {c : γ} :
    o.mapM f = .ok (some c) ↔ ∃ b, o = some b ∧ f b = .ok c := by
  cases o with
  | none => exact ⟨fun h => (by cases h), fun ⟨_, h, _⟩ => (by cases h)⟩
  | some b =>
    refine ⟨fun h => ?_, fun ⟨_, hb, h⟩ => ?_⟩
    · obtain ⟨c', hc, h⟩ := bind_eq_ok.mp h
      cases h
      exact ⟨b, rfl, hc⟩
    · cases hb
      exact bind_eq_ok.mpr ⟨c, h, rfl⟩

theorem toOption_eq_some {x : Except ε β} {b : β} : x.toOption = some b ↔ x = .ok b := by
  cases x with
  | error e => exact ⟨fun h => (by cases h), fun h => (by cases h)⟩
  | ok b' => exact ⟨fun h => (by cases h; rfl), fun h => (by cases h; rfl)⟩

theorem isOk_iff {x : Except ε β} : x.isOk = true ↔ ∃ b, x = .ok b := by
  cases x with
  | error e => exact ⟨fun h => (by cases h), fun ⟨_, h⟩ => (by cases h)⟩
  | ok b => exact ⟨fun _ => ⟨b, rfl⟩, fun _ => rfl⟩

section

variable {σ : Type} {x : ExceptT ε (StateM σ) β} {f : β → ExceptT ε (StateM σ) γ} {s s' : σ}

/-- A run goes on from where its first part succeeds. -/
theorem run_bind_ok {b : β} (h : x s = (.ok b, s')) : (x >>= f) s = f b s' := by
  show (ExceptT.bindCont f (x s).1) (x s).2 = _
  rw [h]
  rfl

/-- A run stops where its first part fails. -/
theorem run_bind_error {e : ε} (h : x s = (.error e, s')) : (x >>= f) s = (.error e, s') := by
  show (ExceptT.bindCont f (x s).1) (x s).2 = _
  rw [h]
  rfl

/-- A run that succeeds has gone on from where its first part succeeded. -/
theorem run_bind_eq_ok {c : γ} : (x >>= f) s = (.ok c, s') ↔
    ∃ b between, x s = (.ok b, between) ∧ f b between = (.ok c, s') := by
  constructor
  · intro h
    cases hx : x s with
    | mk result between =>
      cases result with
      | ok b => exact ⟨b, between, rfl, (run_bind_ok hx).symm.trans h⟩
      | error e =>
        rw [run_bind_error hx] at h
        cases h
  · rintro ⟨b, between, hx, hf⟩
    exact (run_bind_ok hx).trans hf

variable {handle : ε → ExceptT ε (StateM σ) β}

/-- What succeeds needs no handler. -/
theorem run_tryCatch_ok {b : β} (h : x s = (.ok b, s')) :
    (tryCatchThe ε x handle) s = (.ok b, s') := by
  show (match (x s).1 with
    | .ok b => (pure (.ok b) : StateM σ (Except ε β))
    | .error e => handle e) (x s).2 = _
  rw [h]
  rfl

/-- A handler goes on from where a run fails. -/
theorem run_tryCatch_error {e : ε} (h : x s = (.error e, s')) :
    (tryCatchThe ε x handle) s = handle e s' := by
  show (match (x s).1 with
    | .ok b => (pure (.ok b) : StateM σ (Except ε β))
    | .error e => handle e) (x s).2 = _
  rw [h]

/-! ### Loops -/

theorem forM_congr {f g : β → ExceptT ε (StateM σ) PUnit} :
    ∀ {items : List β}, (∀ b ∈ items, f b = g b) → items.forM f = items.forM g
  | [], _ => rfl
  | b :: rest, h => by
    obtain ⟨hb, hrest⟩ := List.forall_mem_cons.mp h
    show (f b >>= fun _ => rest.forM f) = (g b >>= fun _ => rest.forM g)
    rw [hb, forM_congr hrest]

/-- A loop over some of the items passes over the others. -/
theorem forM_filter (p : β → Bool) (f : β → ExceptT ε (StateM σ) PUnit) :
    ∀ items : List β, (items.filter p).forM f =
      items.forM fun b => if p b then f b else pure PUnit.unit
  | [] => rfl
  | b :: rest => by
    show _ = (if p b then f b else pure PUnit.unit) >>= fun _ =>
      rest.forM fun b => if p b then f b else pure PUnit.unit
    rw [← forM_filter p f rest, List.filter_cons]
    split
    · rfl
    · exact (pure_bind _ _).symm

/-- A loop over items with what is made of them is one over the items. -/
theorem forM_zip_map (f : β → γ) (g : β → γ → ExceptT ε (StateM σ) PUnit) (items : List β) :
    (items.zip (items.map f)).forM (fun (b, c) => g b c) = items.forM fun b => g b (f b) := by
  rw [← List.map_prod_left_eq_zip]
  exact List.forM_map

/-! ### Other errors -/

variable {δ : Type} (adapter : ε → δ)

theorem run_adapt (x : ExceptT ε (StateM σ) β) (s : σ) :
    (x.adapt adapter) s = ((x s).1.mapError adapter, (x s).2) := rfl

theorem run_adapt_ok {b : β} (h : x s = (.ok b, s')) : (x.adapt adapter) s = (.ok b, s') := by
  rw [run_adapt, h]
  rfl

theorem run_adapt_error {e : ε} (h : x s = (.error e, s')) :
    (x.adapt adapter) s = (.error (adapter e), s') := by
  rw [run_adapt, h]
  rfl

theorem adapt_bind (x : ExceptT ε (StateM σ) β) (f : β → ExceptT ε (StateM σ) γ) :
    (x >>= f).adapt adapter = x.adapt adapter >>= fun b => (f b).adapt adapter := by
  funext s
  rcases hx : x s with ⟨e | b, s'⟩
  · rw [run_adapt, run_bind_error hx, run_bind_error (run_adapt_error adapter hx)]
    rfl
  · rw [run_adapt, run_bind_ok hx, run_bind_ok (run_adapt_ok adapter hx), run_adapt]

theorem adapt_forM (f : β → ExceptT ε (StateM σ) PUnit) :
    ∀ items : List β, (items.forM f).adapt adapter = items.forM fun b => (f b).adapt adapter
  | [] => rfl
  | b :: rest => by
    show (f b >>= fun _ => rest.forM f).adapt adapter =
      (f b).adapt adapter >>= fun _ => rest.forM fun b => (f b).adapt adapter
    rw [adapt_bind, adapt_forM f rest]

end

/-! ## Errors of a kind -/

section

variable {P : ε → Prop}

/-- A computation fails with errors of a kind only. -/
def FailsWith (P : ε → Prop) (x : Except ε β) : Prop := ∀ e, x = .error e → P e

namespace FailsWith

theorem ok (b : β) : FailsWith P (.ok b) := fun _ h => by cases h

theorem error {e : ε} (h : P e) : FailsWith P (.error e : Except ε β) := fun _ h' => by
  cases h'
  exact h

theorem mapError {δ : Type} {f : δ → ε} (h : ∀ e, P (f e)) :
    ∀ x : Except δ β, FailsWith P (x.mapError f)
  | .ok b => ok b
  | .error e => error (h e)

theorem bind {x : Except ε β} {f : β → Except ε γ} (hx : FailsWith P x)
    (hf : ∀ b, FailsWith P (f b)) : FailsWith P (x >>= f) := by
  intro e h
  rcases bind_eq_error.mp h with h | ⟨b, -, h⟩
  · exact hx e h
  · exact hf b e h

end FailsWith

end

end CanvasScript
