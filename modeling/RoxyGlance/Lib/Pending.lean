import Mathlib.Data.List.Basic
import Mathlib.Data.List.Forall2

/-!
# Applying pending changes

Objects that collect changes until they are asked to apply them.  Applying is a computation on a
state that returns whether anything was pending; an exception keeps the state it was thrown in.

* `whenPending`: apply if something is pending, and forget that it was;
* `both`: two computations after each other;
* `each`: one computation for every item of a list, with a state they share;
* `zoom`: a computation on a part of the state.

`Settles P E pending x` says what may be relied on, from a state in `P`.  When `x` returns, it
returns whether something was pending, nothing is pending any more, and nothing has happened if
nothing was; when it throws, something is pending still.  `Settles.whenPending`, `Settles.both`,
`Settles.each` and `Settles.zoom` derive it for a whole from its parts.
-/

namespace Pending

variable {ε σ τ α β : Type}

/-- A computation that applies what is pending and returns whether there was anything. -/
abbrev Apply (ε σ : Type) := EStateM ε σ Bool

/-- A change of the state that may be refused. -/
def update (f : σ → Except ε σ) : EStateM ε σ Unit := fun s =>
  match f s with
  | .ok s' => .ok () s'
  | .error e => .error e s

/-- The result of a computation, with its state put into a larger one. -/
def mapState (f : τ → σ) : EStateM.Result ε τ β → EStateM.Result ε σ β
  | .ok b t => .ok b (f t)
  | .error e t => .error e (f t)

/-- A computation on the part `get` sees and `put` replaces. -/
def zoom (get : σ → τ) (put : σ → τ → σ) (x : EStateM ε τ β) : EStateM ε σ β := fun s =>
  mapState (put s) (x (get s))

/-- If something is pending, do it and then forget about it. -/
def whenPending (pending : σ → Bool) (forget : σ → σ) (x : EStateM ε σ Unit) : Apply ε σ := fun s =>
  if pending s then
    match x s with
    | .ok _ s => .ok true (forget s)
    | .error e s => .error e s
  else .ok false s

/-- With nothing pending nothing happens. -/
theorem whenPending_of_not {pending : σ → Bool} {s : σ} (h : pending s = false) (forget : σ → σ)
    (x : EStateM ε σ Unit) : whenPending pending forget x s = .ok false s := by
  rw [whenPending, h]
  rfl

/-- One computation after the other. -/
def both (x y : Apply ε σ) : Apply ε σ := fun s =>
  match x s with
  | .error e s => .error e s
  | .ok changed s => match y s with
    | .error e s => .error e s
    | .ok changed' s => .ok (changed || changed') s

/-- The items from the front on; an exception leaves the later ones as they are. -/
def eachFrom (x : Apply ε (σ × α)) : List α → σ → EStateM.Result ε (σ × List α) Bool
  | [], s => .ok false (s, [])
  | a :: as, s => match x (s, a) with
    | .error e (s, a) => .error e (s, a :: as)
    | .ok changed (s, a) => match eachFrom x as s with
      | .error e (s, as) => .error e (s, a :: as)
      | .ok changed' (s, as) => .ok (changed || changed') (s, a :: as)

/-- The computation for every item in turn. -/
def each (x : Apply ε (σ × α)) : Apply ε (σ × List α) := fun s => eachFrom x s.2 s.1

/-! ### Keeping a property -/

/-- The state is in `P`, and the exception, if there is one, is in `E`. -/
def Kept (P : σ → Prop) (E : ε → Prop) : EStateM.Result ε σ β → Prop
  | .ok _ s => P s
  | .error e s => E e ∧ P s

/-- From a state in `P` the computation stays in `P`, and it throws nothing but `E`. -/
def Keeps (P : σ → Prop) (E : ε → Prop) (x : EStateM ε σ β) : Prop := ∀ s, P s → Kept P E (x s)

section Keeps

variable {P : σ → Prop} {E : ε → Prop}

theorem Keeps.pure (b : β) : Keeps P E (Pure.pure b) := fun _ hs => hs

theorem Keeps.bind {γ : Type} {x : EStateM ε σ β} {f : β → EStateM ε σ γ} (hx : Keeps P E x)
    (hf : ∀ b, Keeps P E (f b)) : Keeps P E (x >>= f) := by
  intro s hs
  have hkept := hx s hs
  show Kept P E (EStateM.bind x f s)
  unfold EStateM.bind
  cases hrun : x s with
  | error e s₁ =>
    rw [hrun] at hkept
    exact hkept
  | ok b s₁ =>
    rw [hrun] at hkept
    exact hf b s₁ hkept

theorem Keeps.update {f : σ → Except ε σ} (hok : ∀ s s', P s → f s = .ok s' → P s')
    (herror : ∀ s e, P s → f s = .error e → E e) : Keeps P E (update f) := by
  intro s hs
  unfold Pending.update
  cases hf : f s with
  | error e => exact ⟨herror s e hs hf, hs⟩
  | ok s' => exact hok s s' hs hf

/-- A result keeps what it is put into. -/
theorem Kept.mapState {Q : τ → Prop} {f : τ → σ} {r : EStateM.Result ε τ β} (h : Kept Q E r)
    (hf : ∀ t, Q t → P (f t)) : Kept P E (mapState f r) := by
  cases r with
  | ok b t => exact hf t h
  | error e t => exact ⟨h.1, hf t h.2⟩

/-- A computation on a part, when the part has the property it needs and may be put back. -/
theorem Keeps.zoom {Q : τ → Prop} {get : σ → τ} {put : σ → τ → σ} {x : EStateM ε τ β}
    (hx : Keeps Q E x) (hget : ∀ s, P s → Q (get s)) (hput : ∀ s t, P s → Q t → P (put s t)) :
    Keeps P E (zoom get put x) := fun s hs =>
  (hx (get s) (hget s hs)).mapState fun t => hput s t hs

theorem Keeps.whenPending {x : EStateM ε σ Unit} (hx : Keeps P E x) (pending : σ → Bool)
    (forget : σ → σ) (hforget : ∀ s, P s → P (forget s)) :
    Keeps P E (whenPending pending forget x) := by
  intro s hs
  have hkept := hx s hs
  unfold Pending.whenPending
  split
  · cases hrun : x s with
    | error e s' =>
      rw [hrun] at hkept
      exact hkept
    | ok _ s' =>
      rw [hrun] at hkept
      exact hforget s' hkept
  · exact hs

/-- What is done may rely on something being pending. -/
theorem Keeps.whenPending_of {pending : σ → Bool} {x : EStateM ε σ Unit}
    (hx : Keeps (fun s => P s ∧ pending s = true) E x) {forget : σ → σ}
    (hforget : ∀ s, P s → P (forget s)) : Keeps P E (Pending.whenPending pending forget x) := by
  intro s hs
  unfold Pending.whenPending
  split
  · rename_i hpending
    have hkept := hx s ⟨hs, hpending⟩
    cases hrun : x s with
    | error e s' =>
      rw [hrun] at hkept
      exact ⟨hkept.1, hkept.2.1⟩
    | ok _ s' =>
      rw [hrun] at hkept
      exact hforget s' hkept.1
  · exact hs

theorem Keeps.both {x y : Apply ε σ} (hx : Keeps P E x) (hy : Keeps P E y) :
    Keeps P E (both x y) := by
  intro s hs
  have hfirst := hx s hs
  unfold Pending.both
  cases hrun₁ : x s with
  | error e s₁ =>
    rw [hrun₁] at hfirst
    exact hfirst
  | ok changed s₁ =>
    rw [hrun₁] at hfirst
    have hsecond := hy s₁ hfirst
    dsimp only
    cases hrun₂ : y s₁ with
    | error e s₂ =>
      rw [hrun₂] at hsecond
      exact hsecond
    | ok changed' s₂ =>
      rw [hrun₂] at hsecond
      exact hsecond

/-- **Every item keeps its own property**, wherever an exception stops the computation. -/
theorem Keeps.each {ι : Type} {R : ι → α → Prop} {x : Apply ε (σ × α)}
    (hx : ∀ i, Keeps (fun t => P t.1 ∧ R i t.2) E x) (is : List ι) :
    Keeps (fun t => P t.1 ∧ List.Forall₂ R is t.2) E (each x) := by
  rintro ⟨s, as⟩ ⟨hs, has⟩
  show Kept _ E (eachFrom x as s)
  simp only at hs has
  induction has generalizing s with
  | nil => exact ⟨hs, .nil⟩
  | @cons i a is as ha has ih =>
    have hfirst := hx i (s, a) ⟨hs, ha⟩
    unfold eachFrom
    cases hrun₁ : x (s, a) with
    | error e t =>
      rw [hrun₁] at hfirst
      exact ⟨hfirst.1, hfirst.2.1, .cons hfirst.2.2 has⟩
    | ok changed t =>
      rw [hrun₁] at hfirst
      have hrest := ih t.1 hfirst.1
      dsimp only
      cases hrun₂ : eachFrom x as t.1 with
      | error e u =>
        rw [hrun₂] at hrest
        exact ⟨hrest.1, hrest.2.1, .cons hfirst.2 hrest.2.2⟩
      | ok changed' u =>
        rw [hrun₂] at hrest
        exact ⟨hrest.1, .cons hfirst.2 hrest.2⟩

/-- The same property for every item. -/
theorem Keeps.each_mem {Q : α → Prop} {x : Apply ε (σ × α)}
    (hx : Keeps (fun t => P t.1 ∧ Q t.2) E x) :
    Keeps (fun t => P t.1 ∧ ∀ a ∈ t.2, Q a) E (Pending.each x) := by
  have hall : ∀ {as bs : List α}, List.Forall₂ (fun _ b => Q b) as bs → ∀ b ∈ bs, Q b := by
    intro as bs h
    induction h with
    | nil => exact fun b hb => absurd hb List.not_mem_nil
    | cons hb _ ih => exact List.forall_mem_cons.2 ⟨hb, ih⟩
  rintro ⟨s, as⟩ ⟨hs, has⟩
  have hkept := Keeps.each (R := fun (_ : α) b => Q b) (fun _ => hx) as (s, as)
    ⟨hs, List.forall₂_same.2 has⟩
  cases hrun : Pending.each x (s, as) with
  | error e t =>
    rw [hrun] at hkept
    exact ⟨hkept.1, hkept.2.1, hall hkept.2.2⟩
  | ok changed t =>
    rw [hrun] at hkept
    exact ⟨hkept.1, hall hkept.2⟩

theorem Keeps.forM {l : List α} {f : α → EStateM ε σ PUnit} (hf : ∀ a ∈ l, Keeps P E (f a)) :
    Keeps P E (l.forM f) := by
  induction l with
  | nil => exact Keeps.pure PUnit.unit
  | cons a l ih =>
    refine (hf a List.mem_cons_self).bind fun _ => ih fun b hb => ?_
    exact hf b (List.mem_cons_of_mem a hb)

end Keeps

/-! ### Leaving a part alone -/

/-- A computation leaves a part of the state alone whenever it returns. -/
def Frames {γ : Type} (part : σ → γ) (x : EStateM ε σ β) : Prop :=
  ∀ s b s', x s = .ok b s' → part s' = part s

section Frames

variable {γ : Type} {part : σ → γ}

/-- What `put` does not touch is left alone by a computation on a part. -/
theorem Frames.zoom {get : σ → τ} {put : σ → τ → σ} (h : ∀ s t, part (put s t) = part s)
    (x : EStateM ε τ β) : Frames part (zoom get put x) := by
  intro s b s' hx
  unfold Pending.zoom at hx
  cases hrun : x (get s) with
  | error e t =>
    rw [hrun] at hx
    cases hx
  | ok c t =>
    rw [hrun] at hx
    cases hx
    exact h s t

theorem Frames.whenPending {pending : σ → Bool} {forget : σ → σ} {x : EStateM ε σ Unit}
    (hx : Frames part x) (hforget : ∀ s, part (forget s) = part s) :
    Frames part (whenPending pending forget x) := by
  intro s b s' h
  unfold Pending.whenPending at h
  split_ifs at h
  · cases hrun : x s with
    | error e s₁ =>
      rw [hrun] at h
      cases h
    | ok u s₁ =>
      rw [hrun] at h
      cases h
      rw [hforget, hx s u s₁ hrun]
  · cases h
    rfl

theorem Frames.both {x y : Apply ε σ} (hx : Frames part x) (hy : Frames part y) :
    Frames part (both x y) := by
  intro s b s' h
  unfold Pending.both at h
  cases hrun₁ : x s with
  | error e s₁ =>
    rw [hrun₁] at h
    cases h
  | ok changed s₁ =>
    simp only [hrun₁] at h
    cases hrun₂ : y s₁ with
    | error e s₂ =>
      rw [hrun₂] at h
      cases h
    | ok changed' s₂ =>
      rw [hrun₂] at h
      cases h
      rw [hy s₁ _ s' hrun₂, hx s _ s₁ hrun₁]

end Frames

/-! ### Settling -/

/-- How applying from `s` ends: everything that was pending has been applied and nothing else has
been done, or an exception was thrown and something is pending still. -/
def Settled (P : σ → Prop) (E : ε → Prop) (pending : σ → Bool) (s : σ) :
    EStateM.Result ε σ Bool → Prop
  | .ok changed s' =>
    changed = pending s ∧ P s' ∧ pending s' = false ∧ (pending s = false → s' = s)
  | .error e s' => E e ∧ P s' ∧ pending s' = true

/-- Applying from a state in `P` ends so. -/
def Settles (P : σ → Prop) (E : ε → Prop) (pending : σ → Bool) (x : Apply ε σ) : Prop :=
  ∀ s, P s → Settled P E pending s (x s)

section Settles

variable {P : σ → Prop} {E : ε → Prop} {p q : σ → Bool}

/-- **A change settles** when it keeps what is needed, and the flag until it is forgotten. -/
theorem Settles.whenPending {forget : σ → σ} {x : EStateM ε σ Unit}
    (hx : Keeps (fun s => P s ∧ p s = true) E x)
    (hforget : ∀ s, P s → P (forget s) ∧ p (forget s) = false) :
    Settles P E p (whenPending p forget x) := by
  intro s hs
  unfold Pending.whenPending
  split_ifs with hp
  · have hkept := hx s ⟨hs, hp⟩
    cases hrun : x s with
    | error e s₁ =>
      rw [hrun] at hkept
      exact hkept
    | ok u s₁ =>
      rw [hrun] at hkept
      obtain ⟨hP, hnone⟩ := hforget s₁ hkept.1
      exact ⟨hp.symm, hP, hnone, fun h => absurd (h.symm.trans hp) Bool.false_ne_true⟩
  · rw [Bool.not_eq_true] at hp
    exact ⟨hp.symm, hs, hp, fun _ => rfl⟩

/-- **Two computations settle together** when neither touches what the other has pending. -/
theorem Settles.both {x y : Apply ε σ} (hx : Settles P E p x) (hy : Settles P E q y)
    (hq : Frames q x) (hp : Frames p y) : Settles P E (fun s => p s || q s) (both x y) := by
  intro s hs
  have hfirst := hx s hs
  unfold Pending.both
  cases hrun₁ : x s with
  | error e s₁ =>
    rw [hrun₁] at hfirst
    exact ⟨hfirst.1, hfirst.2.1, Bool.or_eq_true_iff.2 (Or.inl hfirst.2.2)⟩
  | ok c₁ s₁ =>
    rw [hrun₁] at hfirst
    obtain ⟨hc₁, hs₁, hp₁, hsame₁⟩ := hfirst
    -- what is pending for `y` is what was pending before `x`
    have hq₁ : q s₁ = q s := hq s c₁ s₁ hrun₁
    have hsecond := hy s₁ hs₁
    dsimp only
    cases hrun₂ : y s₁ with
    | error e s₂ =>
      rw [hrun₂] at hsecond
      exact ⟨hsecond.1, hsecond.2.1, Bool.or_eq_true_iff.2 (Or.inr hsecond.2.2)⟩
    | ok c₂ s₂ =>
      rw [hrun₂] at hsecond
      obtain ⟨hc₂, hs₂, hq₂, hsame₂⟩ := hsecond
      have hp₂ : p s₂ = p s₁ := hp s₁ c₂ s₂ hrun₂
      refine ⟨?_, hs₂, ?_, fun hnone => ?_⟩
      · rw [hc₁, hc₂, hq₁]
      · show (p s₂ || q s₂) = false
        rw [hp₂, hp₁, hq₂]
        rfl
      · rw [Bool.or_eq_false_iff] at hnone
        rw [hsame₂ (hq₁.trans hnone.2), hsame₁ hnone.1]

/-- A settled result may be put into a larger state. -/
theorem Settled.mapState {Q : τ → Prop} {r : τ → Bool} {f : τ → σ} {t : τ}
    {result : EStateM.Result ε τ Bool} (h : Settled Q E r t result) (hf : ∀ t, Q t → P (f t))
    (hp : ∀ t, p (f t) = r t) : Settled P E p (f t) (mapState f result) := by
  cases result with
  | error e t' => exact ⟨h.1, hf t' h.2.1, (hp t').trans h.2.2⟩
  | ok changed t' =>
    obtain ⟨hchanged, ht', hr, hsame⟩ := h
    refine ⟨hchanged.trans (hp t).symm, hf t' ht', (hp t').trans hr, fun hnone => ?_⟩
    rw [hsame ((hp t).symm.trans hnone)]

/-- **A computation on a part settles** when putting back what was there changes nothing. -/
theorem Settles.zoom {Q : τ → Prop} {r : τ → Bool} {get : σ → τ} {put : σ → τ → σ} {x : Apply ε τ}
    (hx : Settles Q E r x) (hget : ∀ s, P s → Q (get s)) (hput : ∀ s t, P s → Q t → P (put s t))
    (hgetput : ∀ s t, r (get (put s t)) = r t) (hputget : ∀ s, P s → put s (get s) = s) :
    Settles P E (fun s => r (get s)) (zoom get put x) := by
  intro s hs
  have hsettled := (hx (get s) (hget s hs)).mapState (p := fun s => r (get s))
    (fun t => hput s t hs) (hgetput s)
  rwa [hputget s hs] at hsettled

/-- **Every item of a list settles** when one item does, with the state they share. -/
theorem Settles.each {Q : α → Prop} {r : α → Bool} {x : Apply ε (σ × α)}
    (hx : Settles (fun t => P t.1 ∧ Q t.2) E (fun t => r t.2) x) :
    Settles (fun t => P t.1 ∧ ∀ a ∈ t.2, Q a) E (fun t => t.2.any r) (each x) := by
  rintro ⟨s, as⟩ ⟨hs, has⟩
  show Settled _ E _ (s, as) (eachFrom x as s)
  simp only at hs has
  -- the later items start from the state the earlier ones leave behind
  induction as generalizing s with
  | nil => exact ⟨rfl, ⟨hs, has⟩, rfl, fun _ => rfl⟩
  | cons a as ih =>
    have hfirst := hx (s, a) ⟨hs, has a List.mem_cons_self⟩
    have hrest : ∀ b ∈ as, Q b := fun b hb => has b (List.mem_cons_of_mem a hb)
    unfold eachFrom
    cases hrun₁ : x (s, a) with
    | error e t =>
      rw [hrun₁] at hfirst
      obtain ⟨he, ⟨hs₁, ha₁⟩, hr₁⟩ := hfirst
      refine ⟨he, ⟨hs₁, List.forall_mem_cons.2 ⟨ha₁, hrest⟩⟩, ?_⟩
      simp only [List.any_cons, hr₁, Bool.true_or]
    | ok c₁ t =>
      rw [hrun₁] at hfirst
      obtain ⟨hc₁, ⟨hs₁, ha₁⟩, hr₁, hsame₁⟩ := hfirst
      have hothers := ih t.1 hs₁ hrest
      dsimp only
      cases hrun₂ : eachFrom x as t.1 with
      | error e u =>
        rw [hrun₂] at hothers
        obtain ⟨he, ⟨hs₂, has₂⟩, hr₂⟩ := hothers
        refine ⟨he, ⟨hs₂, List.forall_mem_cons.2 ⟨ha₁, has₂⟩⟩, ?_⟩
        simp only [List.any_cons, hr₂, Bool.or_true]
      | ok c₂ u =>
        rw [hrun₂] at hothers
        obtain ⟨hc₂, ⟨hs₂, has₂⟩, hr₂, hsame₂⟩ := hothers
        refine ⟨?_, ⟨hs₂, List.forall_mem_cons.2 ⟨ha₁, has₂⟩⟩, ?_, fun hnone => ?_⟩
        · rw [hc₁, hc₂]
          rfl
        · simp only [List.any_cons, hr₁, hr₂, Bool.or_self]
        · have hparts : (r a || as.any r) = false := hnone
          rw [Bool.or_eq_false_iff] at hparts
          have ht := hsame₁ hparts.1
          subst ht
          rw [hsame₂ hparts.2]

end Settles

end Pending
